import Redelivery.Proofs.Port.Recorded
import Redelivery.Proofs.Stack.Likeness

/-!
# Scopes that are cancelled together

Each layer opens a scope of its own for every read, inside that of the layer around it.  So
there are more scopes around a stack than around a single layer: for every scope of the
single layer's side there may be several, one inside the other, on the stack's side.  They
are cancelled together, but for a moment at the end of a read.

The stack's side is the left one here.  What is known is, for every scope on the left, the
number of the scope on the right that it stands for, and which scopes on both sides others
have been given.

Main definitions:

* `Scope.ids`: the numbers of a scope and of those around it.
* `Scope.Tied`: two scopes that are cancelled together.
* `Likeness`, `Bond`: what others know of both sides, and what layers know.
* `Ambient.Alike`, `Ambient.Bound`: what is shared is the same on both sides, as far as others
  can see, and as far as layers need it.
* `Ambient.Jointly`: both sides do alike what others can do.

Main results:

* Theorem `Ambient.Bound.isCancelled_iff`: scopes that are tied are cancelled together.
* Theorem `Ambient.Bound.jointly`: what is bound stays bound whatever others do on both sides.
* Theorems `Ambient.Bound.child`, `Ambient.Bound.child_left`, `Ambient.Bound.cancel_left`,
  `Ambient.Bound.cancel_last`: and so it does in what layers do.
-/

namespace Redelivery

/-- The numbers of a scope and of those around it. -/
def Scope.ids (scope : Scope) : List Nat := scope.id :: scope.around

theorem Scopes.isCancelled_iff_ids (scopes : Scopes) (scope : Scope) :
    scopes.IsCancelled scope ↔ ∃ id ∈ scope.ids, scopes.flag id = true := by
  simp [Scopes.IsCancelled, Scope.ids]

/-! ## What is known -/

/-- The scopes that others have been given, on both sides, and for each group on the left
whether it has been made on the right, too. -/
structure Likeness where
  scopes : List (Scope × Scope)
  groups : List Bool

namespace Likeness

/-- Another pair of scopes is given away. -/
def know (l : Likeness) (x y : Scope) : Likeness := { l with scopes := (x, y) :: l.scopes }

/-- Another group is made on the left, and perhaps on the right. -/
def make (l : Likeness) (shared : Bool) : Likeness := { l with groups := l.groups ++ [shared] }

/-- More scopes were given away, and more groups made. -/
structure Grows (l l' : Likeness) : Prop where
  scopes : l.scopes ⊆ l'.scopes
  groups : l.groups <+: l'.groups

theorem Grows.refl (l : Likeness) : l.Grows l := ⟨List.Subset.refl _, List.prefix_refl _⟩

theorem Grows.trans {l l' l'' : Likeness} (h : l.Grows l') (h' : l'.Grows l'') : l.Grows l'' :=
  ⟨List.Subset.trans h.scopes h'.scopes, h.groups.trans h'.groups⟩

theorem grows_know (l : Likeness) (x y : Scope) : l.Grows (l.know x y) :=
  ⟨List.subset_cons_self _ _, List.prefix_refl _⟩

theorem grows_make (l : Likeness) (shared : Bool) : l.Grows (l.make shared) :=
  ⟨List.Subset.refl _, List.prefix_append _ _⟩

end Likeness

/-- What is known to layers: for every scope on the left, moreover, the number of the scope on
the right that it stands for. -/
structure Bond extends Likeness where
  numbers : List Nat

namespace Bond

/-- Another pair of scopes is given away. -/
def know (w : Bond) (x y : Scope) : Bond := ⟨w.toLikeness.know x y, w.numbers⟩

/-- Another group is made on the left, and perhaps on the right. -/
def make (w : Bond) (shared : Bool) : Bond := ⟨w.toLikeness.make shared, w.numbers⟩

/-- Another scope on the left stands for the one with this number on the right. -/
def number (w : Bond) (n : Nat) : Bond := { w with numbers := w.numbers ++ [n] }

/-- More is known than before. -/
structure Grows (w w' : Bond) : Prop where
  likeness : w.toLikeness.Grows w'.toLikeness
  numbers : w.numbers <+: w'.numbers

namespace Grows

variable {w w' w'' : Bond}

theorem refl (w : Bond) : w.Grows w := ⟨.refl _, List.prefix_refl _⟩

theorem trans (h : w.Grows w') (h' : w'.Grows w'') : w.Grows w'' :=
  ⟨h.likeness.trans h'.likeness, h.numbers.trans h'.numbers⟩

/-- What a scope stands for does not change. -/
theorem getElem? (h : w.Grows w') {i n : Nat} (hi : w.numbers[i]? = some n) :
    w'.numbers[i]? = some n := by
  rcases h.numbers with ⟨more, heq⟩
  rw [← heq]
  exact getElem?_append_of_eq_some hi more

end Grows

theorem grows_know (w : Bond) (x y : Scope) : w.Grows (w.know x y) :=
  ⟨Likeness.grows_know _ _ _, List.prefix_refl _⟩

theorem grows_make (w : Bond) (shared : Bool) : w.Grows (w.make shared) :=
  ⟨Likeness.grows_make _ _, List.prefix_refl _⟩

theorem grows_number (w : Bond) (n : Nat) : w.Grows (w.number n) :=
  ⟨.refl _, List.prefix_append _ _⟩

end Bond

/-! ## Scopes that are tied -/

/-- The scope on the right is the one that the left one stands for, and those around them stand
for each other.  Whatever stands for one of the right ones is among the left ones. -/
structure Scope.Tied (numbers : List Nat) (x y : Scope) : Prop where
  own : numbers[x.id]? = some y.id
  into : ∀ i ∈ x.ids, ∃ n ∈ y.ids, numbers[i]? = some n
  back : ∀ i n : Nat, numbers[i]? = some n → n ∈ y.ids → i ∈ x.ids
  onto : ∀ n ∈ y.ids, ∃ i : Nat, numbers[i]? = some n

namespace Scope.Tied

variable {numbers : List Nat} {x y : Scope}

/-- Other scopes on the left that stand for none of the right ones change nothing. -/
theorem append (h : Tied numbers x y) {more : List Nat} (hmore : ∀ n ∈ more, n ∉ y.ids) :
    Tied (numbers ++ more) x y where
  own := getElem?_append_of_eq_some h.own _
  into i hi := by
    rcases h.into i hi with ⟨m, hm, heq⟩
    exact ⟨m, hm, getElem?_append_of_eq_some heq _⟩
  back i m hm hmem := by
    rw [List.getElem?_append] at hm
    split at hm
    case isTrue => exact h.back i m hm hmem
    case isFalse => exact absurd hmem (hmore m (List.mem_of_getElem? hm))
  onto m hm := by
    rcases h.onto m hm with ⟨i, hi⟩
    exact ⟨i, getElem?_append_of_eq_some hi _⟩

/-- Scopes that were just opened inside others that are tied are tied. -/
theorem child (h : Tied numbers x y) {n : Nat} (hsmall : ∀ m ∈ numbers, m < n) :
    Tied (numbers ++ [n]) ⟨numbers.length, x.ids⟩ ⟨n, y.ids⟩ where
  own := List.getElem?_concat_length
  into i hi := by
    rcases List.mem_cons.1 hi with rfl | hi
    · exact ⟨n, List.mem_cons_self, List.getElem?_concat_length⟩
    · rcases h.into i hi with ⟨m, hm, heq⟩
      exact ⟨m, List.mem_cons_of_mem _ hm, getElem?_append_of_eq_some heq _⟩
  back i m hm hmem := by
    rcases getElem?_append_singleton_eq_some hm with hold | ⟨rfl, -⟩
    · have hlt := hsmall m (List.mem_of_getElem? hold)
      rcases List.mem_cons.1 hmem with rfl | hmem
      · exact absurd hlt (Nat.lt_irrefl _)
      · exact List.mem_cons_of_mem _ (h.back i m hold hmem)
    · exact List.mem_cons_self
  onto m hm := by
    rcases List.mem_cons.1 hm with rfl | hm
    · exact ⟨_, List.getElem?_concat_length⟩
    · rcases h.onto m hm with ⟨i, hi⟩
      exact ⟨i, getElem?_append_of_eq_some hi _⟩

/-- A scope that was just opened on the left stands for the same as the one around it. -/
theorem child_left (h : Tied numbers x y) :
    Tied (numbers ++ [y.id]) ⟨numbers.length, x.ids⟩ y where
  own := List.getElem?_concat_length
  into i hi := by
    rcases List.mem_cons.1 hi with rfl | hi
    · exact ⟨y.id, List.mem_cons_self, List.getElem?_concat_length⟩
    · rcases h.into i hi with ⟨m, hm, heq⟩
      exact ⟨m, hm, getElem?_append_of_eq_some heq _⟩
  back i m hm hmem := by
    rcases getElem?_append_singleton_eq_some hm with hold | ⟨rfl, -⟩
    · exact List.mem_cons_of_mem _ (h.back i m hold hmem)
    · exact List.mem_cons_self
  onto m hm := by
    rcases h.onto m hm with ⟨i, hi⟩
    exact ⟨i, getElem?_append_of_eq_some hi _⟩

end Scope.Tied

/-- Scopes that were just opened inside no other are tied. -/
theorem Scope.tied_fresh {numbers : List Nat} {n : Nat} (hsmall : ∀ m ∈ numbers, m < n) :
    Scope.Tied (numbers ++ [n]) ⟨numbers.length, []⟩ ⟨n, []⟩ where
  own := List.getElem?_concat_length
  into i hi := by
    obtain rfl := List.mem_singleton.1 hi
    exact ⟨n, List.mem_cons_self, List.getElem?_concat_length⟩
  back i m hm hmem := by
    obtain rfl := List.mem_singleton.1 hmem
    rcases getElem?_append_singleton_eq_some hm with hold | ⟨rfl, -⟩
    · exact absurd (hsmall _ (List.mem_of_getElem? hold)) (Nat.lt_irrefl _)
    · exact List.mem_cons_self
  onto m hm := by
    obtain rfl := List.mem_singleton.1 hm
    exact ⟨_, List.getElem?_concat_length⟩

/-! ## Scopes that nobody else has been given -/

namespace Bond

/-- The scopes are tied, and nobody else has been given the right one, or one inside it. -/
structure Private (w : Bond) (x y : Scope) : Prop where
  tied : x.Tied w.numbers y
  hidden : ∀ pair ∈ w.scopes, y.id ∉ pair.2.ids

/-- What is private stays private. -/
def Keeps (w w' : Bond) : Prop := ∀ x y, w.Private x y → w'.Private x y

theorem Keeps.refl (w : Bond) : w.Keeps w := fun _ _ h => h

theorem Keeps.trans {w w' w'' : Bond} (h : w.Keeps w') (h' : w'.Keeps w'') : w.Keeps w'' :=
  fun x y hprivate => h' x y (h x y hprivate)

theorem keeps_make (w : Bond) (shared : Bool) : w.Keeps (w.make shared) :=
  fun _ _ h => ⟨h.tied, h.hidden⟩

end Bond

/-! ## What is shared -/

namespace Ambient

/-- So many contents are made. -/
def mintContents (a : Ambient) (n : Nat) : Ambient :=
  { a with mint := { a.mint with contents := a.mint.contents + n } }

/-- A group is made. -/
def mintGroup (a : Ambient) : Ambient :=
  { a with mint := { a.mint with groups := a.mint.groups + 1 } }

/-- As far as others can see that have been given scopes, both sides are the same. -/
structure Alike (l : Likeness) (a b : Ambient) : Prop where
  now_eq : a.now = b.now
  wall_eq : a.wall = b.wall
  contents_eq : a.mint.contents = b.mint.contents
  groups_length : a.mint.groups = l.groups.length
  groups_count : b.mint.groups = l.groups.count true
  cancelled : ∀ pair ∈ l.scopes, a.scopes.IsCancelled pair.1 ↔ b.scopes.IsCancelled pair.2

/-- Both sides do alike what others can do: they make parts and groups, open scopes inside
those that they have been given, or inside no other, and cancel them. -/
inductive Jointly : Likeness → Ambient → Ambient → Likeness → Ambient → Ambient → Prop
  | nothing (l : Likeness) (a b : Ambient) : Jointly l a b l a b
  | mints (l : Likeness) (a b : Ambient) (n : Nat) :
      Jointly l a b l (a.mintContents n) (b.mintContents n)
  | groups (l : Likeness) (a b : Ambient) : Jointly l a b (l.make true) a.mintGroup b.mintGroup
  | opens {l : Likeness} (a b : Ambient) {x y : Scope} (known : (x, y) ∈ l.scopes) :
      Jointly l a b (l.know (a.childScope x).1 (b.childScope y).1) (a.childScope x).2
        (b.childScope y).2
  | opensFresh (l : Likeness) (a b : Ambient) :
      Jointly l a b (l.know a.freshScope.1 b.freshScope.1) a.freshScope.2 b.freshScope.2
  | cancels {l : Likeness} (a b : Ambient) {x y : Scope} (known : (x, y) ∈ l.scopes) :
      Jointly l a b l (a.cancel x) (b.cancel y)
  | trans {l l' l'' : Likeness} {a a' a'' b b' b'' : Ambient} (h : Jointly l a b l' a' b')
      (h' : Jointly l' a' b' l'' a'' b'') : Jointly l a b l'' a'' b''

/-- Both sides are the same, and every scope on the left stands for one on the right.  A scope
on the right is cancelled if one on the left is that stands for it, with at most one exception
as a read comes to its end. -/
structure Bound (w : Bond) (ending : Option Nat) (a b : Ambient) : Prop where
  now_eq : a.now = b.now
  wall_eq : a.wall = b.wall
  contents_eq : a.mint.contents = b.mint.contents
  groups_length : a.mint.groups = w.groups.length
  groups_count : b.mint.groups = w.groups.count true
  length_eq : w.numbers.length = a.scopes.flags.size
  lt_size : ∀ n ∈ w.numbers, n < b.scopes.flags.size
  flag_iff : ∀ n, some n ≠ ending →
    (b.scopes.flag n = true ↔ ∃ i : Nat, w.numbers[i]? = some n ∧ a.scopes.flag i = true)
  tied : ∀ pair ∈ w.scopes, pair.1.Tied w.numbers pair.2

namespace Bound

variable {w : Bond} {ending : Option Nat} {a b : Ambient} {x y : Scope}

/-- Scopes that are tied are cancelled together. -/
theorem isCancelled_iff (h : Bound w none a b) (tied : x.Tied w.numbers y) :
    a.scopes.IsCancelled x ↔ b.scopes.IsCancelled y := by
  rw [Scopes.isCancelled_iff_ids, Scopes.isCancelled_iff_ids]
  constructor
  · rintro ⟨i, hi, hflag⟩
    rcases tied.into i hi with ⟨n, hn, heq⟩
    exact ⟨n, hn, (h.flag_iff n nofun).2 ⟨i, heq, hflag⟩⟩
  · rintro ⟨n, hn, hflag⟩
    rcases (h.flag_iff n nofun).1 hflag with ⟨i, heq, hflag⟩
    exact ⟨i, tied.back i n heq hn, hflag⟩

theorem alike (h : Bound w none a b) : Alike w.toLikeness a b :=
  { h with cancelled := fun pair hpair => h.isCancelled_iff (h.tied pair hpair) }

/-- The numbers of a scope on the right, and of those around it, are those of scopes. -/
theorem lt_of_tied (h : Bound w ending a b) (tied : x.Tied w.numbers y) :
    ∀ n ∈ y.ids, n < b.scopes.flags.size := by
  intro n hn
  rcases tied.onto n hn with ⟨i, hi⟩
  exact h.lt_size n (List.mem_of_getElem? hi)

/-! ### Cancelling -/

/-- What stands for cancelled scopes once a scope on the left is cancelled. -/
theorem flag_cancel_left (h : Bound w ending a b) {n m : Nat} (hx : w.numbers[x.id]? = some n) :
    (∃ i : Nat, w.numbers[i]? = some m ∧ (a.cancel x).scopes.flag i = true) ↔
      (∃ i : Nat, w.numbers[i]? = some m ∧ a.scopes.flag i = true) ∨ m = n := by
  have hlt : x.id < a.scopes.flags.size := by
    rw [← h.length_eq]
    exact (List.getElem?_eq_some_iff.1 hx).1
  simp only [Ambient.cancel, Scopes.flag_cancel, Bool.or_eq_true, decide_eq_true_eq]
  constructor
  · rintro ⟨i, hi, hflag | ⟨rfl, -⟩⟩
    · exact .inl ⟨i, hi, hflag⟩
    · exact .inr (Option.some.inj (hi.symm.trans hx))
  · rintro (⟨i, hi, hflag⟩ | rfl)
    · exact ⟨i, hi, .inl hflag⟩
    · exact ⟨x.id, hx, .inr ⟨rfl, hlt⟩⟩

/-- The flags of the right side once a scope that exists is cancelled. -/
theorem flag_cancel_right (h : Bound w ending a b) {m : Nat} (hx : w.numbers[x.id]? = some y.id) :
    (b.cancel y).scopes.flag m = true ↔ b.scopes.flag m = true ∨ m = y.id := by
  have hlt := h.lt_size y.id (List.mem_of_getElem? hx)
  simp only [Ambient.cancel, Scopes.flag_cancel, Bool.or_eq_true, decide_eq_true_eq]
  constructor
  · rintro (hflag | ⟨rfl, -⟩)
    · exact .inl hflag
    · exact .inr rfl
  · rintro (hflag | rfl)
    · exact .inl hflag
    · exact .inr ⟨rfl, hlt⟩

/-- Both sides cancel scopes of which one stands for the other. -/
theorem cancel (h : Bound w ending a b) (hx : w.numbers[x.id]? = some y.id) :
    Bound w ending (a.cancel x) (b.cancel y) :=
  { h with
    length_eq := by simpa [Ambient.cancel] using h.length_eq
    lt_size := by simpa [Ambient.cancel] using h.lt_size
    flag_iff := fun m hm => by
      rw [h.flag_cancel_left hx, h.flag_cancel_right hx, h.flag_iff m hm] }

/-- The left side cancels a scope as a read comes to its end. -/
theorem cancel_left {n : Nat} (h : Bound w (some n) a b) (hx : w.numbers[x.id]? = some n) :
    Bound w (some n) (a.cancel x) b :=
  { h with
    length_eq := by simpa [Ambient.cancel] using h.length_eq
    flag_iff := fun m hm => by
      rw [h.flag_cancel_left hx, h.flag_iff m hm, or_iff_left]
      rintro rfl
      exact hm rfl }

/-- The read has come to its end on both sides. -/
theorem cancel_last (h : Bound w (some y.id) a b) (hx : w.numbers[x.id]? = some y.id) :
    Bound w none (a.cancel x) (b.cancel y) :=
  { h with
    length_eq := by simpa [Ambient.cancel] using h.length_eq
    lt_size := by simpa [Ambient.cancel] using h.lt_size
    flag_iff := fun m _ => by
      rw [h.flag_cancel_left hx, h.flag_cancel_right hx]
      by_cases hm : m = y.id
      · simp [hm]
      · have hother : some m ≠ some y.id := fun heq => hm (Option.some.inj heq)
        rw [h.flag_iff m hother] }

/-- A read is about to come to its end. -/
theorem ends (h : Bound w none a b) (n : Nat) : Bound w (some n) a b :=
  { h with flag_iff := fun m _ => h.flag_iff m nofun }

/-! ### Opening scopes -/

/-- Scopes stay tied as both sides open another. -/
theorem tied_number (h : Bound w ending a b) (tied : x.Tied w.numbers y) :
    x.Tied (w.number b.scopes.flags.size).numbers y := by
  refine tied.append fun n hn hmem => ?_
  obtain rfl := List.mem_singleton.1 hn
  exact Nat.lt_irrefl _ (h.lt_of_tied tied _ hmem)

/-- A scope that was just opened on the right has not been given to anybody. -/
theorem hidden_size (h : Bound w ending a b) :
    ∀ pair ∈ w.scopes, b.scopes.flags.size ∉ pair.2.ids := fun pair hpair hmem =>
  Nat.lt_irrefl _ (h.lt_of_tied (h.tied pair hpair) _ hmem)

/-- A new scope on the left is not cancelled. -/
theorem flag_concat (h : Bound w ending a b) {scopes : Scopes}
    (hflag : ∀ i, scopes.flag i = a.scopes.flag i) (n m : Nat) :
    (∃ i : Nat, (w.number n).numbers[i]? = some m ∧ scopes.flag i = true) ↔
      ∃ i : Nat, w.numbers[i]? = some m ∧ a.scopes.flag i = true := by
  simp only [hflag]
  constructor
  · rintro ⟨i, hi, hset⟩
    rcases getElem?_append_singleton_eq_some hi with hold | ⟨rfl, -⟩
    · exact ⟨i, hold, hset⟩
    · rw [h.length_eq] at hset
      simp [Scopes.flag] at hset
  · rintro ⟨i, hi, hset⟩
    exact ⟨i, getElem?_append_of_eq_some hi _, hset⟩

/-- Both sides have opened a scope. -/
theorem grow (h : Bound w none a b) {scopes scopes' : Scopes}
    (size : scopes.flags.size = a.scopes.flags.size + 1)
    (size' : scopes'.flags.size = b.scopes.flags.size + 1)
    (flag : ∀ i, scopes.flag i = a.scopes.flag i) (flag' : ∀ n, scopes'.flag n = b.scopes.flag n) :
    Bound (w.number b.scopes.flags.size) none { a with scopes } { b with scopes := scopes' } := by
  refine { h with length_eq := ?_, lt_size := ?_, flag_iff := ?_, tied := ?_ }
  · simp [Bond.number, h.length_eq, size]
  · intro n hn
    change n < scopes'.flags.size
    rw [size']
    rcases List.mem_append.1 hn with hold | hnew
    · exact Nat.lt_succ_of_lt (h.lt_size n hold)
    · rw [List.mem_singleton.1 hnew]
      exact Nat.lt_succ_self _
  · intro m hm
    change scopes'.flag m = true ↔ _
    rw [flag', h.flag_iff m hm]
    exact (h.flag_concat flag _ m).symm
  · exact fun pair hpair => h.tied_number (h.tied pair hpair)

/-- Both sides open a scope inside scopes that are tied. -/
theorem child (h : Bound w none a b) (tied : x.Tied w.numbers y) :
    Bound (w.number b.scopes.flags.size) none (a.childScope x).2 (b.childScope y).2 ∧
      (a.childScope x).1.Tied (w.number b.scopes.flags.size).numbers (b.childScope y).1 := by
  refine ⟨h.grow (a.scopes.size_child x) (b.scopes.size_child y) (a.scopes.flag_child x)
    (b.scopes.flag_child y), ?_⟩
  have hchild := tied.child h.lt_size
  rwa [h.length_eq] at hchild

/-- Both sides open a scope inside no other. -/
theorem fresh (h : Bound w none a b) :
    Bound (w.number b.scopes.flags.size) none a.freshScope.2 b.freshScope.2 ∧
      a.freshScope.1.Tied (w.number b.scopes.flags.size).numbers b.freshScope.1 := by
  refine ⟨h.grow a.scopes.size_fresh b.scopes.size_fresh a.scopes.flag_fresh
    b.scopes.flag_fresh, ?_⟩
  have hfresh := Scope.tied_fresh h.lt_size
  rwa [h.length_eq] at hfresh

/-- The left side opens a scope that stands for one that nobody else was given. -/
theorem child_left (h : Bound w none a b) (own : w.Private x y) :
    Bound (w.number y.id) none (a.childScope x).2 b ∧
      (w.number y.id).Private (a.childScope x).1 y := by
  have hchild := own.tied.child_left
  rw [h.length_eq] at hchild
  refine ⟨{ h with length_eq := ?_, lt_size := ?_, flag_iff := ?_, tied := ?_ },
    hchild, own.hidden⟩
  · simp [Bond.number, h.length_eq, Ambient.childScope]
  · intro n hn
    rcases List.mem_append.1 hn with hold | hnew
    · exact h.lt_size n hold
    · rw [List.mem_singleton.1 hnew]
      exact h.lt_size _ (List.mem_of_getElem? own.tied.own)
  · intro m hm
    rw [h.flag_iff m hm]
    exact (h.flag_concat (a.scopes.flag_child x) _ m).symm
  · intro pair hpair
    refine (h.tied pair hpair).append fun n hn => ?_
    rw [List.mem_singleton.1 hn]
    exact own.hidden pair hpair

/-! ### Others -/

/-- A pair of scopes is given away. -/
theorem know (h : Bound w ending a b) (tied : x.Tied w.numbers y) :
    Bound (w.know x y) ending a b :=
  { h with
    tied := fun pair hpair => by
      rcases List.mem_cons.1 hpair with rfl | hold
      · exact tied
      · exact h.tied pair hold }

/-- Both sides make a group. -/
theorem make (h : Bound w ending a b) : Bound (w.make true) ending a.mintGroup b.mintGroup :=
  { h with
    groups_length := by simp [Bond.make, Likeness.make, mintGroup, h.groups_length]
    groups_count := by simp [Bond.make, Likeness.make, mintGroup, h.groups_count] }

/-- The left side makes a group. -/
theorem make_left (h : Bound w ending a b) : Bound (w.make false) ending a.mintGroup b :=
  { h with
    groups_length := by simp [Bond.make, Likeness.make, mintGroup, h.groups_length]
    groups_count := by simp [Bond.make, Likeness.make, h.groups_count] }

/-- Time passes. -/
theorem advance (h : Bound w ending a b) (ms : Nat) :
    Bound w ending (a.advance ms) (b.advance ms) :=
  { h with
    now_eq := congrArg (· + ms) h.now_eq
    wall_eq := congrArg (·.addMillis ms) h.wall_eq }

/-! ### What others do -/

/-- What is private stays so as scopes are given away that were just opened inside ones that
were given away before, or inside no other. -/
theorem keeps_know (h : Bound w none a b) {around : List Nat}
    (known : ∀ x' y', w.Private x' y' → y'.id ∉ around) (x : Scope) :
    w.Keeps ((w.number b.scopes.flags.size).know x ⟨b.scopes.flags.size, around⟩) := by
  intro x' y' own
  refine ⟨h.tied_number own.tied, fun pair hpair => ?_⟩
  rcases List.mem_cons.1 hpair with rfl | hold
  · intro hmem
    rcases List.mem_cons.1 hmem with heq | hmem
    · exact absurd (h.lt_of_tied own.tied _ List.mem_cons_self) (heq ▸ Nat.lt_irrefl _)
    · exact known x' y' own hmem
  · exact own.hidden pair hold

/-- What is bound stays bound whatever others do on both sides. -/
theorem jointly {l' : Likeness} {a' b' : Ambient} (h : Bound w none a b)
    (moves : Jointly w.toLikeness a b l' a' b') :
    ∃ w' : Bond, w'.toLikeness = l' ∧ Bound w' none a' b' ∧ w.Grows w' ∧ w.Keeps w' := by
  generalize hl : w.toLikeness = l at moves
  induction moves generalizing w with
  | nothing => exact ⟨w, hl, h, .refl _, .refl _⟩
  | mints l a b n =>
      exact ⟨w, hl, { h with contents_eq := congrArg (· + n) h.contents_eq }, .refl _, .refl _⟩
  | groups =>
      subst hl
      exact ⟨w.make true, rfl, h.make, w.grows_make _, w.keeps_make _⟩
  | @opens l a b x y known =>
      subst hl
      have hchild := h.child (h.tied _ known)
      exact ⟨_, rfl, hchild.1.know hchild.2, (w.grows_number _).trans (Bond.grows_know _ _ _),
        h.keeps_know (fun x' y' own => own.hidden _ known) _⟩
  | opensFresh =>
      subst hl
      have hfresh := h.fresh
      exact ⟨_, rfl, hfresh.1.know hfresh.2, (w.grows_number _).trans (Bond.grows_know _ _ _),
        h.keeps_know (fun _ _ _ => List.not_mem_nil) _⟩
  | cancels a b known =>
      subst hl
      exact ⟨w, rfl, h.cancel (h.tied _ known).own, .refl _, .refl _⟩
  | trans _ _ ih ih' =>
      rcases ih h hl with ⟨w', hl', hbound, hgrows, hkeeps⟩
      rcases ih' hbound hl' with ⟨w'', hl'', hbound', hgrows', hkeeps'⟩
      exact ⟨w'', hl'', hbound', hgrows.trans hgrows', hkeeps.trans hkeeps'⟩

end Bound
end Ambient

end Redelivery
