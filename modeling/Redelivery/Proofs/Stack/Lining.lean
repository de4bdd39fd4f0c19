import Redelivery.Proofs.Layer.Inside
import Redelivery.Proofs.Stack.Semblance
import Redelivery.Stack

/-!
# Layers inside another one make no difference

A layer can be put around a source, or around other layers around that source.  Compare the
two, layer and all, as long as a single read is going on: the layers between the outermost one
and the source are a lining.  They hear of nothing but success, so they never have anything to
deliver again; they count the same batches as pending; and only the innermost one holds back the
end of the source, as the only layer does on the other side.

A read has to be begun by each layer of the lining before it reaches the source.  Until then it
is some steps behind, and it takes these steps by itself.

What is said here is said of a lining that consists of nothing, and of a lining with one more
layer around it, and so of linings of any height.

Main definitions:

* `Lining`: what is between an outermost layer and the source.
* `Lining.Finds`, `Lining.Results`: what is found through a lining, and without it.
* `Lining.Sound`: a lining makes no difference.
* `Lining.bare`, `Lining.layer`: no lining, and one layer more.
* `Stack.lining`: layers with the same settings as a lining.

Main results:

* Theorem `Lining.Sound.layer`: one layer more makes no difference.
* Theorem `Stack.sound_lining`: a stack of any height makes no difference.
-/

namespace Redelivery

open Layer Ambient

variable {P Q : Port} {σ : Semblance P} {settings : Settings}

/-- What is between an outermost layer and the source: through `Q` the outermost layer reads what
is read from `P` without the lining. -/
structure Lining (σ : Semblance P) (Q : Port) where
  /-- So many layers there are. -/
  height : Nat
  /-- Both sides are alike inside, with so many batches pending. -/
  Core : Likeness → Int → Inside Q → Inside P → Prop
  /-- The reads are alike, but the one through the lining is so many steps behind. -/
  Read : Bond → Nat → Reading Q → Reading P → Prop
  Receipt : Likeness → Q.Receipt → P.Receipt → Prop
  source : Q.State → P.State
  /-- Changes the state of the source. -/
  update : (P.State → P.State) → Q.State → Q.State

namespace Lining

/-! ## What a lining promises -/

/-- Reads in a scope find the same on both sides.  As a read ends, the scope is yet to end with it
on the right. -/
inductive Finds (c : Lining σ Q) (w : Bond) (pending : Int) (scope : Scope) :
    Finding Q → Finding P → Prop
  | going {w' : Bond} {q : Reading Q} {r : Reading P} {a b : Ambient} {s : Inside Q}
      {t : Inside P} (grows : w.Grows w') (bound : Bound w' none a b)
      (core : c.Core w'.toLikeness pending s t) (read : c.Read w' 0 q r) (same : r.scope = scope) :
      Finds c w pending scope (.going q, a, s) (.going r, b, t)
  | delivered {w' : Bond} {x y : Batch} {p : Q.Receipt} {q : P.Receipt} {a b : Ambient}
      {s : Inside Q} {t : Inside P} (grows : w.Grows w') (bound : Bound w' (some scope.id) a b)
      (core : c.Core w'.toLikeness (pending + 1) s t) (batch : Batch.Like w'.groups x y)
      (receipt : c.Receipt w'.toLikeness p q) :
      Finds c w pending scope (.ended (.delivered x p), a, s) (.ended (.delivered y q), b, t)
  | failed {w' : Bond} (error : ReadError) {a b : Ambient} {s : Inside Q} {t : Inside P}
      (grows : w.Grows w') (bound : Bound w' (some scope.id) a b)
      (core : c.Core w'.toLikeness pending s t) (closed : error = .closed → pending ≤ 0) :
      Finds c w pending scope (.ended (.failed error), a, s) (.ended (.failed error), b, t)
  | died {w' : Bond} (reason : String) {a b : Ambient} {s : Inside Q} {t : Inside P}
      (grows : w.Grows w') (bound : Bound w' (some scope.id) a b)
      (core : c.Core w'.toLikeness pending s t) :
      Finds c w pending scope (.ended (.died reason), a, s) (.ended (.died reason), b, t)

/-- An operation has the same result on both sides. -/
def Results (c : Lining σ Q) (w : Bond) (pending : Int) {α : Type} (x : α × Ambient × Inside Q)
    (y : α × Ambient × Inside P) : Prop :=
  ∃ w' : Bond, w.Grows w' ∧ w.Keeps w' ∧ Bound w' none x.2.1 y.2.1 ∧
    c.Core w'.toLikeness pending x.2.2 y.2.2 ∧ x.1 = y.1

/-- The lining makes no difference. -/
structure Sound (c : Lining σ Q) (settings : Settings) : Prop where
  core_mono : ∀ {l l' n s t}, l.Grows l' → c.Core l n s t → c.Core l' n s t
  receipt_mono : ∀ {l l' p q}, l.Grows l' → c.Receipt l p q → c.Receipt l' p q
  read_mono : ∀ {w w' m q r}, w.Grows w' → w.Keeps w' → c.Read w m q r → c.Read w' m q r
  inward : ∀ {w m q r}, c.Read w m q r → q.Inward ∧ r.Inward
  number : ∀ {w m q r}, c.Read w m q r → w.numbers[q.scope.id]? = some r.scope.id
  source : ∀ {l n s t}, c.Core l n s t → σ.State l (c.source s.inner) t.inner
  armed : ∀ {w x y}, w.Private x y → c.Read w c.height (.armed x) (.armed y)
  /-- Only a read that is about to reach the source can be behind. -/
  behind : ∀ {w m q r}, c.Read w (m + 1) q r → ∃ y, r = .armed y
  /-- A read that is behind takes a step by itself. -/
  dives : ∀ {w m n q r a b s t} (choice : Choice), c.Read w (m + 1) q r →
    c.Core w.toLikeness n s t → Bound w none a b →
    ∃ w' q' a' s', s.find settings choice n q a = some (.going q', a', s') ∧ w.Grows w' ∧
      Bound w' none a' b ∧ c.Core w'.toLikeness n s' t ∧ c.Read w' m q' r
  finds : ∀ {w n q r a b s t} (choice : Choice), c.Read w 0 q r → c.Core w.toLikeness n s t →
    Bound w none a b → Option.Rel (c.Finds w n r.scope) (s.find settings choice n q a)
      (t.find settings choice n r b)
  wake : ∀ {w m n q r s t}, c.Read w m q r → c.Core w.toLikeness n s t → s.wake q = t.wake r
  connect : ∀ {w n x y a b s t}, c.Core w.toLikeness n s t → Bound w none a b →
    (x, y) ∈ w.scopes → c.Results w n (s.connect n x a) (t.connect n y b)
  close : ∀ {w n x y a b s t}, c.Core w.toLikeness n s t → Bound w none a b →
    (x, y) ∈ w.scopes → c.Results w n (s.close x a) (t.close y b)
  settle : ∀ {w n p q a b s t}, c.Core w.toLikeness n s t → Bound w none a b →
    c.Receipt w.toLikeness p q → c.Results w (n - 1) (s.settle p a) (t.settle q b)
  update : ∀ {l n s t} {f g : P.State → P.State},
    (∀ x y, σ.State l x y → σ.State l (f x) (g y)) → c.Core l n s t →
    c.Core l n { s with inner := c.update f s.inner } { t with inner := g t.inner }

/-! ## No lining -/

/-- Reads of the source itself are alike. -/
inductive Direct (σ : Semblance P) (w : Bond) : Reading P → Reading P → Prop
  | armed {x y : Scope} (own : w.Private x y) : Direct σ w (.armed x) (.armed y)
  | asking {x y : Scope} {p q : P.Read} (number : w.numbers[x.id]? = some y.id)
      (known : (x, y) ∈ w.scopes) (read : σ.Read w.toLikeness p q) :
      Direct σ w (.asking x p) (.asking y q)
  | draining {x y : Scope} (number : w.numbers[x.id]? = some y.id) (known : (x, y) ∈ w.scopes)
      (due : Nat) : Direct σ w (.draining x due) (.draining y due)

/-- Nothing is between the layer and the source. -/
def bare (σ : Semblance P) : Lining σ P where
  height := 0
  Core l _ s t := s.inputClosed = t.inputClosed ∧ σ.State l s.inner t.inner
  Read w m q r := m = 0 ∧ Direct σ w q r
  Receipt := σ.Receipt
  source := id
  update := id

variable {w w' : Bond} {n : Int} {a b : Ambient} {x y : Scope}

/-- Both sides hold back the end of the source, or tell it. -/
theorem finds_drain {s t : Inside P} (grows : w.Grows w') (bound : Bound w' none a b)
    (known : (x, y) ∈ w'.scopes) (core : (bare σ).Core w'.toLikeness n s t) :
    (bare σ).Finds w n y (s.drain settings n x a) (t.drain settings n y b) := by
  unfold Inside.drain
  split
  case isTrue hpending => exact .failed .closed grows (bound.ends _) core fun _ => hpending
  case isFalse =>
    rw [bound.now_eq]
    exact .going grows bound ⟨rfl, core.2⟩ ⟨rfl, .draining (bound.tied _ known).own known _⟩ rfl

/-- The source has come to the same on both sides. -/
theorem finds_hear {s t : Inside P} {f g : Progress P.Read P.Receipt × Ambient × P.State}
    (grows : w.Grows w') (bound : Bound w' none a b) (known : (x, y) ∈ w'.scopes)
    (flags : s.inputClosed = t.inputClosed) (turns : σ.Turns w'.toLikeness a b f g) :
    (bare σ).Finds w n y (s.hear settings n x f) (t.hear settings n y g) := by
  rcases f with ⟨f, a', s'⟩
  rcases g with ⟨g, b', t'⟩
  rcases turns with ⟨l, hmoves, hstate, hprogress⟩
  rcases bound.jointly hmoves with ⟨w'', rfl, hbound, hgrows, -⟩
  have hknown := hgrows.likeness.scopes known
  have hall := grows.trans hgrows
  cases hprogress with
  | going read =>
      exact .going hall hbound ⟨flags, hstate⟩
        ⟨rfl, .asking (hbound.tied _ hknown).own hknown read⟩ rfl
  | ended answer =>
      cases answer with
      | delivered batch receipt =>
          exact .delivered hall (hbound.ends _) ⟨flags, hstate⟩ batch receipt
      | died reason => exact .died reason hall (hbound.ends _) ⟨flags, hstate⟩
      | failed error =>
          cases error with
          | closed => exact finds_drain hall hbound hknown ⟨flags, hstate⟩
          | _ => exact .failed _ hall (hbound.ends _) ⟨flags, hstate⟩ (by simp)

/-- Without a lining both sides find the same. -/
theorem finds_direct (hσ : σ.Sound) {q r : Reading P} {s t : Inside P} (choice : Choice)
    (read : Direct σ w q r) (core : (bare σ).Core w.toLikeness n s t)
    (bound : Bound w none a b) : Option.Rel ((bare σ).Finds w n r.scope)
      (s.find settings choice n q a) (t.find settings choice n r b) := by
  cases read with
  | @armed x y own =>
      have hgrows := w.grows_know x y
      have hbound := bound.know own.tied
      have hknown : (x, y) ∈ (w.know x y).scopes := List.mem_cons_self
      have hstate := hσ.state_mono hgrows.likeness core.2
      simp only [Inside.find, core.1]
      split
      case isTrue => exact .some (finds_drain hgrows hbound hknown ⟨core.1, hstate⟩)
      case isFalse =>
        exact .some (finds_hear hgrows hbound hknown core.1
          (hσ.start choice hstate hbound.alike hknown))
  | asking number known read =>
      exact rel_map (hσ.step choice core.2 bound.alike read) fun f g turns =>
        finds_hear (.refl w) bound known core.1 turns
  | @draining x y number known due =>
      simp only [Inside.find, bound.isCancelled_iff (bound.tied _ known), bound.now_eq]
      cases choice.waited (decide (b.scopes.IsCancelled y)) (decide (due ≤ b.now)) with
      | none => exact .none
      | some cancelled =>
          refine .some ?_
          cases cancelled with
          | true => exact .failed .timeout (.refl w) (bound.ends _) core (by simp)
          | false => exact finds_drain (.refl w) bound known core

/-- What the source does alike has the same results inside the layer. -/
theorem results_direct {α : Type} {s t : Inside P} {f g : α × Ambient × P.State}
    (bound : Bound w none a b) (results : σ.Results w.toLikeness a b f g)
    (flags : s.inputClosed = t.inputClosed) :
    (bare σ).Results w n (f.1, f.2.1, { s with inner := f.2.2 })
      (g.1, g.2.1, { t with inner := g.2.2 }) := by
  rcases results with ⟨l, hmoves, hstate, hresult⟩
  rcases bound.jointly hmoves with ⟨w', rfl, hbound, hgrows, hkeeps⟩
  exact ⟨w', hgrows, hkeeps, hbound, ⟨flags, hstate⟩, hresult⟩

/-- Connecting the source has the same result on both sides. -/
theorem connect_direct (hσ : σ.Sound) {s t : Inside P} (core : (bare σ).Core w.toLikeness n s t)
    (bound : Bound w none a b) (known : (x, y) ∈ w.scopes) :
    (bare σ).Results w n (s.connect n x a) (t.connect n y b) := by
  have hresults := hσ.connect core.2 bound.alike known
  unfold Inside.connect
  generalize P.connect x a s.inner = f at hresults ⊢
  generalize P.connect y b t.inner = g at hresults ⊢
  rcases f with ⟨result, a', s'⟩
  rcases g with ⟨result', b', t'⟩
  rcases hresults with ⟨l, hmoves, hstate, rfl⟩
  rcases bound.jointly hmoves with ⟨w', rfl, hbound, hgrows, hkeeps⟩
  dsimp only
  split
  case h_1 =>
    split
    case isTrue => exact ⟨w', hgrows, hkeeps, hbound, ⟨rfl, hstate⟩, rfl⟩
    case isFalse => exact ⟨w', hgrows, hkeeps, hbound, ⟨core.1, hstate⟩, rfl⟩
  case h_2 => exact ⟨w', hgrows, hkeeps, hbound, ⟨core.1, hstate⟩, rfl⟩

/-- No lining makes no difference. -/
theorem sound_bare (hσ : σ.Sound) : (bare σ).Sound settings where
  core_mono grows core := ⟨core.1, hσ.state_mono grows core.2⟩
  receipt_mono := hσ.receipt_mono
  read_mono grows keeps read := by
    refine ⟨read.1, ?_⟩
    cases read.2 with
    | armed own => exact .armed (keeps _ _ own)
    | asking number known inside =>
        exact .asking (grows.getElem? number) (grows.likeness.scopes known)
          (hσ.read_mono grows.likeness inside)
    | draining number known due =>
        exact .draining (grows.getElem? number) (grows.likeness.scopes known) due
  inward read := by
    cases read.2 with
    | armed | asking | draining => exact ⟨trivial, trivial⟩
  number read := by
    cases read.2 with
    | armed own => exact own.tied.own
    | asking number | draining number => exact number
  source core := core.2
  armed own := ⟨rfl, .armed own⟩
  behind read := nomatch read.1
  dives _ read := nomatch read.1
  finds choice read core bound := finds_direct hσ choice read.2 core bound
  wake read core := by
    cases read.2 with
    | armed | draining => rfl
    | asking _ _ inside => exact hσ.wake core.2 inside
  connect core bound known := connect_direct hσ core bound known
  close core bound known := results_direct bound (hσ.close core.2 bound.alike known) core.1
  settle core bound receipt := results_direct bound (hσ.settle core.2 bound.alike receipt) core.1
  update like core := ⟨core.1, like _ _ core.2⟩

/-! ## One layer more -/

/-- A read through one layer more is yet to go through it, or has gone on inside. -/
inductive Through (c : Lining σ Q) (settings : Settings) (w : Bond) :
    Nat → Reading (Layer.port settings Q) → Reading P → Prop
  | armed {x y : Scope} (own : w.Private x y) :
      Through c settings w (c.height + 1) (.armed x) (.armed y)
  | asking {m : Nat} {x : Scope} {q : Reading Q} {r : Reading P}
      (number : w.numbers[x.id]? = some r.scope.id) (read : c.Read w m q r) :
      Through c settings w m (.asking x q) r

/-- A lining with one layer more around it, inside the outermost one. -/
def layer (c : Lining σ Q) (settings : Settings) : Lining σ (Layer.port settings Q) where
  height := c.height + 1
  Core l n s t := s.inputClosed = false ∧ s.inner.backlog.entries = [] ∧ s.inner.pending = n ∧
    c.Core l n s.inner.inside t
  Read := Through c settings
  Receipt l held q := c.Receipt l held.entry.receipt q
  source layer := c.source layer.inner
  update f layer := { layer with inner := c.update f layer.inner }

/-- A read that has got one step further through the inner layers has done so through the layer
around them. -/
theorem find_asking {settings : Settings} {q : Reading Q} (inward : q.Inward) (choice : Choice)
    {s : Inside (Layer.port settings Q)} (pending : s.inner.pending = n) (x : Scope) (a : Ambient) :
    s.find settings choice n (.asking x q) a =
      (s.inner.inside.find settings choice n q a).map fun found =>
        s.hear settings n x (s.inner.handOn settings q.scope found) := by
  change (Layer.step settings choice q a s.inner).map _ = _
  rw [Layer.step_eq inward, pending, Option.map_map]
  rfl

/-- A read that is behind goes one layer deeper by itself. -/
theorem Sound.layer_dives {c : Lining σ Q} (h : c.Sound settings) (choice : Choice) {m : Nat}
    {q : Reading (Layer.port settings Q)} {r : Reading P} {s : Inside (Layer.port settings Q)}
    {t : Inside P} (read : (c.layer settings).Read w (m + 1) q r)
    (core : (c.layer settings).Core w.toLikeness n s t) (bound : Bound w none a b) :
    ∃ w' q' a' s', s.find settings choice n q a = some (.going q', a', s') ∧ w.Grows w' ∧
      Bound w' none a' b ∧ (c.layer settings).Core w'.toLikeness n s' t ∧
      (c.layer settings).Read w' m q' r := by
  rcases core with ⟨hflag, hempty, hpending, hcore⟩
  cases read with
  | @armed x y own =>
      have hgrows := w.grows_number y.id
      rcases bound.child_left own with ⟨hbound, hprivate⟩
      refine ⟨_, .asking x (.armed (a.childScope x).1), (a.childScope x).2,
        { s with inner := { s.inner with backlog := ⟨[], (a.childScope x).1⟩ } }, ?_, hgrows,
        hbound, ⟨hflag, rfl, hpending, hcore⟩, ?_⟩
      · have hfind : s.find settings choice n (.armed x) a =
            some (s.hear settings n x (Layer.start settings choice x a s.inner)) :=
          if_neg (by simp [hflag])
        rw [hfind, Layer.start_eq hempty a]
        rfl
      · exact .asking (hgrows.getElem? own.tied.own) (h.armed hprivate)
  | @asking _ x q r number read =>
      rcases h.dives choice read hcore bound with
        ⟨w', q', a', s', hfind, hgrows, hbound, hcore, hread⟩
      refine ⟨w', .asking x q', a', { s with inner := s.inner.withInside s' }, ?_, hgrows, hbound,
        ⟨hflag, hempty, hpending, hcore⟩, .asking (hgrows.getElem? number) hread⟩
      rw [find_asking (h.inward read).1 choice hpending, hfind]
      rfl

/-- What is found through inner layers is found through the layer around them. -/
theorem Sound.finds_handOn {c : Lining σ Q} (h : c.Sound settings) {scope x z : Scope}
    {s : Inside (Layer.port settings Q)} (flag : s.inputClosed = false)
    (empty : s.inner.backlog.entries = []) (pending : s.inner.pending = n)
    (outer : w.numbers[x.id]? = some scope.id) (inner : w.numbers[z.id]? = some scope.id)
    {f : Finding Q} {g : Finding P} (finds : c.Finds w n scope f g) :
    (c.layer settings).Finds w n scope (s.hear settings n x (s.inner.handOn settings z f)) g := by
  cases finds with
  | going grows bound core read same =>
      refine .going grows bound ⟨flag, empty, pending, core⟩ (.asking ?_ read) same
      rw [same]
      exact grows.getElem? outer
  | @delivered w' x y p q a b s' t' grows bound core batch receipt =>
      have hz := grows.getElem? inner
      by_cases hlength : x.length = 1
      · have hdeliver := deliver_single (.fresh x p settings.backoff) hlength z a
          { s.inner.withInside s' with pending := s.inner.pending + 1 }
        rw [handOn, hdeliver]
        exact .delivered grows (bound.cancel_left hz)
          ⟨flag, empty, congrArg (· + 1) pending, core⟩ batch receipt
      · have hdeliver := deliver_several (.fresh x p settings.backoff) hlength z a
          { s.inner.withInside s' with pending := s.inner.pending + 1 }
        rw [handOn, hdeliver]
        have hgrows := w'.grows_make false
        have htag := batch.tag_left x.length
        rw [← bound.groups_length] at htag
        exact .delivered (grows.trans hgrows) (bound.make_left.cancel_left hz)
          ⟨flag, empty, congrArg (· + 1) pending, h.core_mono hgrows.likeness core⟩ htag
          (h.receipt_mono hgrows.likeness receipt)
  | failed error grows bound core closed =>
      have hbound := bound.cancel_left (grows.getElem? inner)
      have hcore : (c.layer settings).Core _ n
          { s with inner := s.inner.withInside _ } _ := ⟨flag, empty, pending, core⟩
      cases error with
      | closed =>
          refine (congrArg ((c.layer settings).Finds w n scope · _) ?_).mpr
            (.failed .closed grows hbound hcore closed)
          exact if_pos (closed rfl)
      | _ => exact .failed _ grows hbound hcore (by simp)
  | died reason grows bound core =>
      exact .died reason grows (bound.cancel_left (grows.getElem? inner))
        ⟨flag, empty, pending, core⟩

/-- A read that is not behind finds the same through one layer more. -/
theorem Sound.layer_finds {c : Lining σ Q} (h : c.Sound settings) (choice : Choice)
    {q : Reading (Layer.port settings Q)} {r : Reading P} {s : Inside (Layer.port settings Q)}
    {t : Inside P} (read : (c.layer settings).Read w 0 q r)
    (core : (c.layer settings).Core w.toLikeness n s t) (bound : Bound w none a b) :
    Option.Rel ((c.layer settings).Finds w n r.scope) (s.find settings choice n q a)
      (t.find settings choice n r b) := by
  rcases core with ⟨hflag, hempty, hpending, hcore⟩
  cases read with
  | asking number read =>
      have hfinds := h.finds choice read hcore bound
      rw [find_asking (h.inward read).1 choice hpending]
      generalize s.inner.inside.find settings choice n _ a = f at hfinds
      generalize t.find settings choice n _ b = g at hfinds
      cases hfinds with
      | none => exact .none
      | some finds =>
          exact .some (h.finds_handOn hflag hempty hpending number (h.number read) finds)

/-- Through a layer that counts the same, a port is connected with the same result. -/
theorem connect_through {s : Inside (Layer.port settings Q)} (pending : s.inner.pending = n)
    (x : Scope) (a : Ambient) : s.connect n x a =
      ((s.inner.inside.connect n x a).1, (s.inner.inside.connect n x a).2.1,
        { s with inner := s.inner.withInside (s.inner.inside.connect n x a).2.2 }) := by
  have hinner : Layer.connect x a s.inner =
      s.inner.within (s.inner.inside.connect n x a) := by
    rw [← pending]
    exact Layer.connect_eq x a s.inner
  have hclosed : (s.inner.inside.connect n x a).1 = .error .closed → n ≤ 0 :=
    Inside.connect_closed
  generalize s.inner.inside.connect n x a = found at hinner hclosed ⊢
  rcases found with ⟨result, b, s'⟩
  by_cases hend : result = .error .closed
  · have hpending : ¬0 < n := Int.not_lt.2 (hclosed hend)
    simp [Inside.connect, hinner, hend, hpending, within]
  · simp only [Inside.connect, hinner, within]

/-- An operation through inner layers has the same result through the layer around them. -/
theorem Results.through {c : Lining σ Q} {m : Int} {s : Inside (Layer.port settings Q)}
    (flag : s.inputClosed = false) (empty : s.inner.backlog.entries = []) {α : Type}
    {f : α × Ambient × Inside Q} {g : α × Ambient × Inside P} (results : c.Results w m f g) :
    (c.layer settings).Results w m
      (f.1, f.2.1, { s with inner := { s.inner.withInside f.2.2 with pending := m } }) g := by
  rcases results with ⟨w', hgrows, hkeeps, hbound, hcore, heq⟩
  exact ⟨w', hgrows, hkeeps, hbound, ⟨flag, empty, rfl, hcore⟩, heq⟩

/-- One layer more makes no difference. -/
theorem Sound.layer {c : Lining σ Q} (h : c.Sound settings) :
    (c.layer settings).Sound settings where
  core_mono grows core := ⟨core.1, core.2.1, core.2.2.1, h.core_mono grows core.2.2.2⟩
  receipt_mono grows receipt := h.receipt_mono grows receipt
  read_mono grows keeps read := by
    cases read with
    | armed own => exact .armed (keeps _ _ own)
    | asking number inside =>
        exact .asking (grows.getElem? number) (h.read_mono grows keeps inside)
  inward read := by
    cases read with
    | armed own => exact ⟨trivial, trivial⟩
    | asking number inside => exact ⟨trivial, (h.inward inside).2⟩
  number read := by
    cases read with
    | armed own => exact own.tied.own
    | asking number inside => exact number
  source core := h.source core.2.2.2
  armed own := .armed own
  behind read := by
    cases read with
    | armed own => exact ⟨_, rfl⟩
    | asking number inside => exact h.behind inside
  dives choice read core bound := h.layer_dives choice read core bound
  finds choice read core bound := h.layer_finds choice read core bound
  wake {w m n q r s t} read core := by
    cases read with
    | armed own => rfl
    | asking number inside =>
        exact (Layer.wake_eq (h.inward inside).1 s.inner).trans (h.wake inside core.2.2.2)
  connect {w n x y a b s t} core bound known := by
    rcases core with ⟨hflag, hempty, rfl, hcore⟩
    rw [connect_through rfl]
    exact (h.connect hcore bound known).through hflag hempty
  close {w n x y a b s t} core bound known := by
    rcases core with ⟨hflag, hempty, rfl, hcore⟩
    exact (h.close hcore bound known).through hflag hempty
  settle {w n p q a b s t} core bound receipt := by
    rcases core with ⟨hflag, hempty, rfl, hcore⟩
    exact (h.settle hcore bound receipt).through hflag hempty
  update like core := ⟨core.1, core.2.1, core.2.2.1, h.update like core.2.2.2⟩

end Lining

/-! ## Stacks -/

namespace Stack

/-- Inside the outermost layer, so many others with the same settings. -/
def lining (σ : Semblance P) (settings : Settings) :
    (height : Nat) → Lining σ (port P (List.replicate height settings))
  | 0 => .bare σ
  | height + 1 => (lining σ settings height).layer settings

/-- However many layers there are, they make no difference. -/
theorem sound_lining (h : σ.Sound) (settings : Settings) :
    (height : Nat) → (lining σ settings height).Sound settings
  | 0 => Lining.sound_bare h
  | height + 1 => (sound_lining h settings height).layer

/-- A new stack has opened as many scopes as it has layers, and nothing else has happened. -/
theorem new_ambient (source : P.State) : (layers : List Settings) → (a : Ambient) →
    (new source layers a).2 =
      { a with scopes := ⟨a.scopes.flags ++ Array.replicate layers.length false⟩ }
  | [], a => by simp [new]
  | _ :: layers, a => by
      simp only [new, new_ambient source layers a, freshScope, Scopes.fresh, List.length_cons,
        Array.replicate_succ, Array.append_push]

/-- Inside a new stack all is alike. -/
theorem core_new {l : Likeness} {source : P.State} (plain : σ.State l source source)
    (settings : Settings) : (height : Nat) → (a : Ambient) →
    (lining σ settings height).Core l 0
      ⟨false, (new source (List.replicate height settings) a).1⟩ ⟨false, source⟩
  | 0, _ => ⟨rfl, plain⟩
  | height + 1, a => ⟨rfl, rfl, rfl, core_new plain settings height a⟩

/-- What is at the bottom of the lining is at the bottom of the stack. -/
theorem source_lining (settings : Settings) : (height : Nat) →
    (s : (port P (List.replicate height settings)).State) →
    (lining σ settings height).source s = base (List.replicate height settings) s
  | 0, _ => rfl
  | height + 1, (layer : Layer (port P (List.replicate height settings))) =>
      source_lining settings height layer.inner

/-- What changes at the bottom of the stack changes at the bottom of the lining. -/
theorem update_lining (settings : Settings) (f : P.State → P.State) : (height : Nat) →
    (s : (port P (List.replicate height settings)).State) →
    (lining σ settings height).update f s = update f (List.replicate height settings) s
  | 0, _ => rfl
  | height + 1, (layer : Layer (port P (List.replicate height settings))) =>
      congrArg (fun inner => ({ layer with inner } : Layer _))
        (update_lining settings f height layer.inner)

/-- No layer of a lining has anything to deliver again, and all have the same pending. -/
theorem stats_lining (settings : Settings) {l : Likeness} {n : Int} : (height : Nat) →
    {s : Inside (port P (List.replicate height settings))} → {t : Inside P} →
    (lining σ settings height).Core l n s t →
    ∀ look ∈ stats (List.replicate height settings) s.inner, look.queued = 0 ∧ look.inFlight = n
  | 0, _, _, _, _, hlook => absurd hlook List.not_mem_nil
  | height + 1, _, _, core, look, hlook => by
      rcases core with ⟨-, hempty, hpending, hcore⟩
      rcases List.mem_append.1 hlook with hinner | hown
      · exact stats_lining settings height hcore look hinner
      · obtain rfl := List.mem_singleton.1 hown
        exact ⟨congrArg List.length hempty, hpending⟩

end Stack

end Redelivery
