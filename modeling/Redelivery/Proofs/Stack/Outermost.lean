import Redelivery.Proofs.Stack.Lining

/-!
# The outermost layer around a lining

Two layers with the same settings, one of them with a lining inside and the other with the
source itself, stay alike.  Both keep the same backlog, but for the tags that the lining has
put on what waits in it, and count the same batches as pending; their reads get as far, or the
one through the lining is some steps behind; and they hand out, and are told, the same.

Main definitions:

* `Lining.Beside`, `Lining.Reads`, `Lining.Kept`, `Lining.Given`: layers, reads, entries and
  receipts that are alike.
* `Lining.Goes`, `Lining.Does`: what comes of reads, and of other operations.

Main results:

* Theorems `Lining.Sound.start`, `Lining.Sound.step`: reads that begin, or go on, do so alike.
* Theorem `Lining.Sound.catchUp`: a read that is behind takes a step by itself.
* Theorems `Lining.Sound.report`, `Lining.Sound.connects`, `Lining.Sound.closes`: the rest has
  the same result.
-/

namespace Redelivery
namespace Lining

open Layer Ambient

variable {P Q : Port} {σ : Semblance P} {settings : Settings} {c : Lining σ Q} {w w' : Bond}
  {a b : Ambient} {x y : Scope} {L : Layer Q} {R : Layer P}

/-! ## What is alike -/

/-- Entries that are alike, with receipts from inside. -/
abbrev Kept (c : Lining σ Q) (w : Bond) : Entry Q.Receipt → Entry P.Receipt → Prop :=
  Entry.Like w.groups (c.Receipt w.toLikeness)

/-- Receipts that are alike. -/
abbrev Given (c : Lining σ Q) (w : Bond) : Held Q.Receipt → Held P.Receipt → Prop :=
  Held.Like w.groups (c.Receipt w.toLikeness)

/-- The layers are alike, inside and outside. -/
structure Beside (c : Lining σ Q) (w : Bond) (L : Layer Q) (R : Layer P) : Prop where
  core : c.Core w.toLikeness R.pending L.inside R.inside
  pending_eq : L.pending = R.pending
  entries : List.Forall₂ (c.Kept w) L.backlog.entries R.backlog.entries
  interrupt : w.numbers[L.backlog.interrupt.id]? = some R.backlog.interrupt.id

/-- Layers that are alike stay so with other backlogs that are alike. -/
theorem Beside.withBacklog (beside : c.Beside w L R) (backlog : Backlog Q.Receipt)
    (backlog' : Backlog P.Receipt)
    (entries : List.Forall₂ (c.Kept w) backlog.entries backlog'.entries)
    (interrupt : w.numbers[backlog.interrupt.id]? = some backlog'.interrupt.id) :
    c.Beside w { L with backlog } { R with backlog := backlog' } :=
  ⟨beside.core, beside.pending_eq, entries, interrupt⟩

/-- The reads are alike, but the one through the lining is so many steps behind. -/
inductive Reads (c : Lining σ Q) (w : Bond) : Nat → Reading Q → Reading P → Prop
  | inward {m : Nat} {q : Reading Q} {r : Reading P} (read : c.Read w m q r) : Reads c w m q r
  | pacing {caller caller' x y : Scope} {entry : Entry Q.Receipt} {entry' : Entry P.Receipt}
      (known : (caller, caller') ∈ w.scopes) (number : w.numbers[x.id]? = some y.id)
      (like : c.Kept w entry entry') (due : Nat) :
      Reads c w 0 (.pacing caller x entry due) (.pacing caller' y entry' due)

theorem Sound.kept_mono (h : c.Sound settings) (grows : w.Grows w') {e : Entry Q.Receipt}
    {f : Entry P.Receipt} (like : c.Kept w e f) : c.Kept w' e f := by
  rcases grows.likeness.groups with ⟨more, heq⟩
  rw [Kept, ← heq]
  exact like.append more (h.receipt_mono grows.likeness)

theorem Sound.given_mono (h : c.Sound settings) (grows : w.Grows w') {e : Held Q.Receipt}
    {f : Held P.Receipt} (like : c.Given w e f) : c.Given w' e f := by
  rcases grows.likeness.groups with ⟨more, heq⟩
  rw [Given, ← heq]
  exact like.append more (h.receipt_mono grows.likeness)

theorem Sound.beside_mono (h : c.Sound settings) (grows : w.Grows w') (beside : c.Beside w L R) :
    c.Beside w' L R where
  core := h.core_mono grows.likeness beside.core
  pending_eq := beside.pending_eq
  entries := beside.entries.imp fun _ _ like => h.kept_mono grows like
  interrupt := grows.getElem? beside.interrupt

theorem Sound.reads_mono (h : c.Sound settings) (grows : w.Grows w') (keeps : w.Keeps w') {m : Nat}
    {q : Reading Q} {r : Reading P} (reads : c.Reads w m q r) : c.Reads w' m q r := by
  cases reads with
  | inward read => exact .inward (h.read_mono grows keeps read)
  | pacing known number like due =>
      exact .pacing (grows.likeness.scopes known) (grows.getElem? number) (h.kept_mono grows like)
        due

/-- Backlogs that are alike have failed as often, and last at the same times. -/
theorem failures_eq {es : List (Entry Q.Receipt)} {fs : List (Entry P.Receipt)}
    (h : List.Forall₂ (c.Kept w) es fs) :
    es.map Entry.attempts = fs.map Entry.attempts ∧
      es.filterMap Entry.lastFailed = fs.filterMap Entry.lastFailed := by
  induction h with
  | nil => exact ⟨rfl, rfl⟩
  | cons like _ ih =>
      rw [List.map_cons, List.map_cons, List.filterMap_cons, List.filterMap_cons, ih.1, ih.2,
        like.attempts_eq, like.lastFailed_eq]
      exact ⟨rfl, rfl⟩

/-- Layers that are alike look the same, but for whether the port inside has ended. -/
theorem Beside.stats_eq (beside : c.Beside w L R) :
    { L.stats with sourceClosed := false } = { R.stats with sourceClosed := false } := by
  have hfailures := failures_eq beside.entries
  have hqueued : L.backlog.size = R.backlog.size := beside.entries.length_eq
  have hattempts : L.backlog.maxAttempts = R.backlog.maxAttempts := by
    have hfold := congrArg (List.foldl max 0) hfailures.1
    rwa [List.foldl_map, List.foldl_map] at hfold
  have holdest : L.backlog.oldestFailure = R.backlog.oldestFailure :=
    congrArg List.min? hfailures.2
  simp only [Layer.stats, hqueued, hattempts, holdest, beside.pending_eq]

/-! ## Reads -/

/-- Reads have come as far on both sides, or the one through the lining is some steps behind. -/
def Goes (c : Lining σ Q) (w : Bond) (f : Going Q × Ambient × Layer Q)
    (g : Going P × Ambient × Layer P) : Prop :=
  ∃ (w' : Bond) (m : Nat), w.Grows w' ∧ Bound w' none f.2.1 g.2.1 ∧
    c.Beside w' f.2.2 g.2.2 ∧ f.1.Like w'.groups (c.Reads w' m) (c.Given w') g.1

/-- Reads end with the same error. -/
theorem goes_failed (grows : w.Grows w') (bound : Bound w' (some y.id) a b)
    (number : w'.numbers[x.id]? = some y.id) (beside : c.Beside w' L R) (error : ReadError) :
    c.Goes w (finish x (.failed error) a L) (finish y (.failed error) b R) :=
  ⟨w', 0, grows, bound.cancel_last number, beside, .ended (.failed error)⟩

/-- Reads break off for the same reason. -/
theorem goes_died (grows : w.Grows w') (bound : Bound w' (some y.id) a b)
    (number : w'.numbers[x.id]? = some y.id) (beside : c.Beside w' L R) (reason : String) :
    c.Goes w (finish x (.died reason) a L) (finish y (.died reason) b R) :=
  ⟨w', 0, grows, bound.cancel_last number, beside, .ended (.died reason)⟩

/-- Entries that are alike are delivered alike. -/
theorem Sound.goes_deliver (h : c.Sound settings) (grows : w.Grows w')
    (bound : Bound w' (some y.id) a b) (number : w'.numbers[x.id]? = some y.id)
    (beside : c.Beside w' L R) {e : Entry Q.Receipt} {f : Entry P.Receipt} (entry : c.Kept w' e f) :
    c.Goes w (deliver x e a L) (deliver y f b R) := by
  by_cases hlength : e.batch.length = 1
  · rw [deliver_single e hlength, deliver_single f (entry.batch.length_eq ▸ hlength)]
    exact ⟨w', 0, grows, bound.cancel_last number, beside,
      .ended (.delivered entry.batch ⟨entry, .none⟩)⟩
  · rw [deliver_several e hlength, deliver_several f (entry.batch.length_eq ▸ hlength),
      ← entry.batch.length_eq]
    have hgrows := w'.grows_make true
    have htag := entry.batch.tag e.batch.length
    have hgroup := Group.Like.concat w'.groups e.batch.length
    rw [← bound.groups_length, ← bound.groups_count] at htag hgroup
    exact ⟨w'.make true, 0, grows.trans hgrows, bound.make.cancel_last number,
      h.beside_mono hgrows beside,
      .ended (.delivered htag ⟨h.kept_mono hgrows entry, .some hgroup⟩)⟩

/-- What is found inside is handed on alike. -/
theorem Sound.goes_handOn (h : c.Sound settings) (beside : c.Beside w L R) {q : Reading Q}
    {r : Reading P} (number : w.numbers[q.scope.id]? = some r.scope.id) {f : Finding Q}
    {g : Finding P} (finds : c.Finds w R.pending r.scope f g) :
    c.Goes w (L.handOn settings q.scope f) (R.handOn settings r.scope g) := by
  have hbeside : ∀ {w' s t}, w.Grows w' → c.Core w'.toLikeness R.pending s t →
      c.Beside w' (L.withInside s) (R.withInside t) := fun grows core =>
    { h.beside_mono grows beside with core := core }
  cases finds with
  | going grows bound core read =>
      exact ⟨_, 0, grows, bound, hbeside grows core, .going (.inward read)⟩
  | delivered grows bound core batch receipt =>
      refine h.goes_deliver grows bound (grows.getElem? number) ?_ ⟨batch, receipt, rfl, rfl, rfl⟩
      exact { h.beside_mono grows beside with
        core := core, pending_eq := congrArg (· + 1) beside.pending_eq }
  | failed error grows bound core =>
      exact goes_failed grows bound (grows.getElem? number) (hbeside grows core) error
  | died reason grows bound core =>
      exact goes_died grows bound (grows.getElem? number) (hbeside grows core) reason

/-- An entry of the backlog is delivered again alike, at once or after the same delay. -/
theorem Sound.goes_redeliver (h : c.Sound settings) {caller caller' : Scope} (grows : w.Grows w')
    (bound : Bound w' none a b) (known : (caller, caller') ∈ w'.scopes)
    (number : w'.numbers[x.id]? = some y.id) (beside : c.Beside w' L R) {e : Entry Q.Receipt}
    {f : Entry P.Receipt} (entry : c.Kept w' e f) (choice : Choice) :
    c.Goes w (redeliver settings choice caller x e a L)
      (redeliver settings choice caller' y f b R) := by
  have hends := bound.ends y.id
  simp only [redeliver, entry.attempts_eq, entry.backoff_eq]
  split
  case isFalse =>
    exact h.goes_deliver grows hends number beside
      ⟨entry.batch, entry.receipt, rfl, rfl, entry.lastFailed_eq⟩
  case isTrue =>
    cases f.backoff.next choice.pick with
    | error reason => exact goes_died grows hends number beside reason.message
    | ok next =>
        rcases next with ⟨delay, backoff⟩
        dsimp only
        split
        case isTrue =>
          exact h.goes_deliver grows hends number beside
            ⟨entry.batch, entry.receipt, rfl, rfl, entry.lastFailed_eq⟩
        case isFalse =>
          have hentry : c.Kept w' { e with attempts := f.attempts, backoff } { f with backoff } :=
            ⟨entry.batch, entry.receipt, rfl, rfl, entry.lastFailed_eq⟩
          rw [bound.now_eq]
          exact ⟨w', 0, grows, bound, beside, .going (.pacing known number hentry _)⟩

/-- Reads that begin in scopes that are alike do so alike. -/
theorem Sound.start (h : c.Sound settings) (beside : c.Beside w L R)
    (bound : Bound w none a b) (known : (x, y) ∈ w.scopes) (choice : Choice) :
    c.Goes w (Layer.start settings choice x a L) (Layer.start settings choice y b R) := by
  rcases bound.child (bound.tied _ known) with ⟨hbound, htied⟩
  have hgrows := w.grows_number b.scopes.flags.size
  have hbeside := h.beside_mono hgrows beside
  have hentries := hbeside.entries
  rcases L with ⟨⟨entries, interrupt⟩, pending, flag, inner⟩
  rcases R with ⟨⟨entries', interrupt'⟩, pending', flag', inner'⟩
  cases hentries with
  | nil =>
      have hown : (w.number b.scopes.flags.size).Private (a.childScope x).1 (b.childScope y).1 :=
        ⟨htied, bound.hidden_size⟩
      exact ⟨_, c.height, hgrows, hbound, { hbeside with interrupt := htied.own },
        .going (.inward (h.armed hown))⟩
  | cons entry rest =>
      exact h.goes_redeliver hgrows hbound known htied.own
        (hbeside.withBacklog ⟨_, interrupt⟩ ⟨_, interrupt'⟩ rest hbeside.interrupt) entry choice

/-- A read that is behind takes a step by itself. -/
theorem Sound.catchUp (h : c.Sound settings) {m : Nat} {q : Reading Q} {r : Reading P}
    (reads : c.Reads w (m + 1) q r) (beside : c.Beside w L R) (bound : Bound w none a b)
    (choice : Choice) :
    ∃ w' q' a' L', Layer.step settings choice q a L = some (.going q', a', L') ∧ w.Grows w' ∧
      Bound w' none a' b ∧ c.Beside w' L' R ∧ c.Reads w' m q' r := by
  cases reads with
  | inward read =>
      rcases h.dives choice read beside.core bound with
        ⟨w', q', a', s', hfind, hgrows, hbound, hcore, hread⟩
      refine ⟨w', q', a', L.withInside s', ?_, hgrows, hbound,
        { h.beside_mono hgrows beside with core := hcore }, .inward hread⟩
      rw [Layer.step_eq (h.inward read).1, beside.pending_eq, hfind]
      rfl

/-- The read that another one is behind is not blocked. -/
theorem Sound.step_of_behind (h : c.Sound settings) {m : Nat} {q : Reading Q} {r : Reading P}
    (reads : c.Reads w (m + 1) q r) (choice : Choice) (b : Ambient) (R : Layer P) :
    (Layer.step settings choice r b R).isSome := by
  cases reads with
  | inward read =>
      rcases h.behind read with ⟨y, rfl⟩
      exact Layer.step_armed_isSome settings choice y b R

/-- Reads that are not behind go on alike. -/
theorem Sound.step (h : c.Sound settings) {q : Reading Q} {r : Reading P} (reads : c.Reads w 0 q r)
    (beside : c.Beside w L R) (bound : Bound w none a b) (choice : Choice) :
    Option.Rel (c.Goes w) (Layer.step settings choice q a L)
      (Layer.step settings choice r b R) := by
  cases reads with
  | inward read =>
      rw [Layer.step_eq (h.inward read).1, Layer.step_eq (h.inward read).2, beside.pending_eq]
      exact rel_map (h.finds choice read beside.core bound) fun f g finds =>
        h.goes_handOn beside (h.number read) finds
  | @pacing caller caller' x y e f known number like due =>
      simp only [Layer.step, bound.isCancelled_iff (bound.tied _ known), bound.now_eq]
      cases choice.waited (decide (b.scopes.IsCancelled caller')) (decide (due ≤ b.now)) with
      | none => exact .none
      | some cancelled =>
          refine .some ?_
          cases cancelled with
          | true =>
              exact goes_failed (.refl w) (bound.ends _) number
                (beside.withBacklog (L.backlog.putBack e) (R.backlog.putBack f)
                  (.cons like beside.entries) beside.interrupt) .cancelled
          | false =>
              exact h.goes_deliver (.refl w) (bound.ends _) number beside
                ⟨like.batch, like.receipt, congrArg (· + 1) like.attempts_eq, like.backoff_eq,
                  like.lastFailed_eq⟩

/-- Reads that are alike can go on by themselves at the same time. -/
theorem Sound.reads_wake (h : c.Sound settings) {m : Nat} {q : Reading Q} {r : Reading P}
    (reads : c.Reads w m q r) (beside : c.Beside w L R) :
    Layer.wake q L = Layer.wake r R := by
  cases reads with
  | inward read =>
      rw [Layer.wake_eq (h.inward read).1, Layer.wake_eq (h.inward read).2]
      exact h.wake read beside.core
  | pacing => rfl

/-! ## Other operations -/

/-- An operation has the same result on both sides, and reads stay as they are. -/
def Does (c : Lining σ Q) (w : Bond) {α : Type} (f : α × Ambient × Layer Q)
    (g : α × Ambient × Layer P) : Prop :=
  ∃ w' : Bond, w.Grows w' ∧ w.Keeps w' ∧ Bound w' none f.2.1 g.2.1 ∧
    c.Beside w' f.2.2 g.2.2 ∧ f.1 = g.1

/-- An operation that has the same result inside has it outside, if both layers count what it
leaves pending. -/
theorem Results.does (h : c.Sound settings) (beside : c.Beside w L R) {α : Type} {m n : Int}
    {f : α × Ambient × Inside Q} {g : α × Ambient × Inside P} (results : c.Results w n f g)
    (pending_eq : m = n) :
    c.Does w (({ L with pending := m } : Layer Q).within f)
      (({ R with pending := n } : Layer P).within g) := by
  rcases results with ⟨w', hgrows, hkeeps, hbound, hcore, heq⟩
  have hbeside := h.beside_mono hgrows beside
  exact ⟨w', hgrows, hkeeps, hbound, ⟨hcore, pending_eq, hbeside.entries, hbeside.interrupt⟩, heq⟩

/-- Layers that are alike are connected with the same result. -/
theorem Sound.connects (h : c.Sound settings) (beside : c.Beside w L R)
    (bound : Bound w none a b) (known : (x, y) ∈ w.scopes) :
    c.Does w (Layer.connect x a L) (Layer.connect y b R) := by
  rw [Layer.connect_eq, Layer.connect_eq, beside.pending_eq]
  exact (h.connect beside.core bound known).does h beside beside.pending_eq

/-- Layers that are alike are closed with the same result. -/
theorem Sound.closes (h : c.Sound settings) (beside : c.Beside w L R)
    (bound : Bound w none a b) (known : (x, y) ∈ w.scopes) :
    c.Does w (Layer.close x a L) (Layer.close y b R) := by
  rw [Layer.close_eq, Layer.close_eq]
  exact (h.close beside.core bound known).does h beside beside.pending_eq

/-- Reports that are alike have the same result. -/
theorem Sound.report (h : c.Sound settings) (beside : c.Beside w L R)
    (bound : Bound w none a b) {held : Held Q.Receipt} {held' : Held P.Receipt}
    (given : c.Given w held held') {outcome outcome' : Outcome}
    (like : outcome.Like w.groups outcome') :
    c.Does w (Layer.settle held outcome a L) (Layer.settle held' outcome' b R) := by
  cases like with
  | processed =>
      rw [Layer.settle_inside, Layer.settle_inside]
      exact (h.settle beside.core bound given.entry.receipt).does h beside
        (congrArg (· - 1) beside.pending_eq)
  | failed failure =>
      have hentry := given.afterFailure failure
      refine ⟨w, .refl w, .refl w, bound.cancel beside.interrupt, ?_, rfl⟩
      refine { beside with entries := List.rel_append beside.entries (.cons ?_ .nil) }
      exact { hentry with lastFailed_eq := congrArg some bound.wall_eq }

end Lining
end Redelivery
