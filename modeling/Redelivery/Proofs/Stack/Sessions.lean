import Redelivery.Proofs.Session.Reach
import Redelivery.Proofs.Stack.Outermost

/-!
# Using a layer with a lining, and one without

Whoever uses a layer begins reads, reports on what was delivered, connects and closes.  Two
sessions in which the same is done to a layer with a lining and to one without stay alike: so
does what the users are told, and what they have.  One read at a time goes on.

Main definitions:

* `Reply.Like`: what users are told is alike.
* `Lining.Readers`, `Lining.Deliveries`: the reads and deliveries of two sessions.
* `Lining.Along`: two sessions are alike.

Main results:

* Theorems `Lining.Sound.along_startRead`, `Lining.Sound.along_stepRead`: reads go on alike.
* Theorem `Lining.Sound.along_catchUp`: a read that is behind takes a step by itself.
* Theorems `Lining.Sound.along_report`, `Lining.Sound.along_connect`,
  `Lining.Sound.along_close`, `Lining.Sound.along_jointly`: so does everything else.
-/

namespace Redelivery

/-! ## What users are told -/

/-- Both are told the same, or are given batches that are alike. -/
inductive Reply.Like (groups : List Bool) : Reply → Reply → Prop
  | delivered {x y : Batch} (batch : Batch.Like groups x y) :
      Like groups (.delivered x) (.delivered y)
  | failed (error : ReadError) : Like groups (.failed error) (.failed error)
  | died (reason : String) : Like groups (.died reason) (.died reason)

/-- Reads that end alike tell what is alike. -/
theorem Progress.Like.reply {θ θ' ρ ρ' : Type} {groups : List Bool} {reads : θ → θ' → Prop}
    {receipts : ρ → ρ' → Prop} {x : Progress θ ρ} {y : Progress θ' ρ'}
    (h : x.Like groups reads receipts y) : Option.Rel (Reply.Like groups) x.reply y.reply := by
  cases h with
  | going => exact .none
  | ended answer =>
      cases answer with
      | delivered batch => exact .some (.delivered batch)
      | failed error => exact .some (.failed error)
      | died reason => exact .some (.died reason)

/-- If the only read goes on, the session does what its port says. -/
theorem Session.stepRead_only {P : Port} {s : Session P} {id : Nat} {read : P.Read}
    (readers : s.readers = [⟨id, read⟩]) (choice : Choice) : s.stepRead choice id =
      (P.step choice read s.ambient s.state).map fun (progress, a, state) =>
        (progress.reply, ⟨a, state, Reader.after id progress,
          s.deliveries ++ Delivery.after id progress, s.next⟩) := by
  cases hstep : P.step choice read s.ambient s.state with
  | none => simp [stepRead, readers, hstep]
  | some result =>
      rcases result with ⟨progress, a, state⟩
      cases progress with
      | going read => simp [stepRead, readers, hstep, Progress.reply, Reader.after, Delivery.after]
      | ended answer =>
          cases answer <;> simp [stepRead, readers, hstep, Progress.reply, Answer.reply,
            Reader.after, Delivery.after, conclude, dropReader]

namespace Lining

open Layer Ambient

variable {P Q : Port} {σ : Semblance P} {settings : Settings} {c : Lining σ Q} {w w' : Bond}
  {m : Nat} {x y : Scope} {s : Session (Layer.port settings Q)}
  {t : Session (Layer.port settings P)}

/-! ## Sessions -/

/-- No read goes on, or the same one, which may be some steps behind. -/
inductive Readers (c : Lining σ Q) (w : Bond) : Nat → List (Reader (Layer.port settings Q)) →
    List (Reader (Layer.port settings P)) → Prop
  | idle : Readers c w 0 [] []
  | busy (id : Nat) {m : Nat} {q : Reading Q} {r : Reading P} (reads : c.Reads w m q r) :
      Readers c w m [⟨id, q⟩] [⟨id, r⟩]

theorem Readers.eq_nil {r : List (Reader (Layer.port settings P))} (h : c.Readers w m [] r) :
    r = [] := by
  cases h with
  | idle => rfl

/-- The same was delivered, and not yet reported on. -/
structure Delivered (c : Lining σ Q) (w : Bond) (d : Delivery (Layer.port settings Q))
    (e : Delivery (Layer.port settings P)) : Prop where
  id_eq : d.id = e.id
  given : c.Given w d.receipt e.receipt

/-- The sessions are alike, but the read through the lining is so many steps behind. -/
structure Along (c : Lining σ Q) (w : Bond) (m : Nat) (s : Session (Layer.port settings Q))
    (t : Session (Layer.port settings P)) : Prop where
  bound : Bound w none s.ambient t.ambient
  beside : c.Beside w s.state t.state
  readers : c.Readers w m s.readers t.readers
  deliveries : List.Forall₂ (c.Delivered w) s.deliveries t.deliveries
  next_eq : s.next = t.next

theorem Sound.readers_mono (h : c.Sound settings) (grows : w.Grows w') (keeps : w.Keeps w')
    {q : List (Reader (Layer.port settings Q))} {r : List (Reader (Layer.port settings P))}
    (readers : c.Readers w m q r) : c.Readers w' m q r := by
  cases readers with
  | idle => exact .idle
  | busy id reads => exact .busy id (h.reads_mono grows keeps reads)

theorem Sound.deliveries_mono (h : c.Sound settings) (grows : w.Grows w')
    {d : List (Delivery (Layer.port settings Q))} {e : List (Delivery (Layer.port settings P))}
    (deliveries : List.Forall₂ (c.Delivered w) d e) : List.Forall₂ (c.Delivered w') d e :=
  deliveries.imp fun _ _ like => ⟨like.id_eq, h.given_mono grows like.given⟩

/-- The reads that are left after turns that came to the same. -/
theorem readers_after {p : Going Q} {q : Going P} (id : Nat)
    (like : p.Like w.groups (c.Reads w m) (c.Given w) q) :
    ∃ m, c.Readers w m (Reader.after id p : List (Reader (Layer.port settings Q)))
      (Reader.after id q : List (Reader (Layer.port settings P))) := by
  cases like with
  | going reads => exact ⟨m, .busy id reads⟩
  | ended => exact ⟨0, .idle⟩

/-- The deliveries that come of turns that came to the same. -/
theorem deliveries_after {p : Going Q} {q : Going P} (id : Nat)
    (like : p.Like w.groups (c.Reads w m) (c.Given w) q) :
    List.Forall₂ (c.Delivered w) (Delivery.after id p : List (Delivery (Layer.port settings Q)))
      (Delivery.after id q : List (Delivery (Layer.port settings P))) := by
  cases like with
  | going => exact .nil
  | ended answer =>
      cases answer with
      | delivered batch given => exact .cons ⟨rfl, given⟩ .nil
      | failed | died => exact .nil

/-! ## Reads -/

/-- What comes of a read in both sessions. -/
def Told (c : Lining σ Q) (w : Bond)
    (f : Option Reply × Session (Layer.port settings Q))
    (g : Option Reply × Session (Layer.port settings P)) : Prop :=
  ∃ (w' : Bond) (m : Nat), w.Grows w' ∧ c.Along w' m f.2 g.2 ∧
    Option.Rel (Reply.Like w'.groups) f.1 g.1

/-- After turns that came to the same, the sessions are alike. -/
theorem Sound.told (h : c.Sound settings) (along : c.Along w m s t) (id next : Nat)
    {f : Going Q × Ambient × Layer Q} {g : Going P × Ambient × Layer P} (goes : c.Goes w f g) :
    c.Told w
      (f.1.reply, (⟨f.2.1, f.2.2, Reader.after id f.1, s.deliveries ++ Delivery.after id f.1,
        next⟩ : Session (Layer.port settings Q)))
      (g.1.reply, (⟨g.2.1, g.2.2, Reader.after id g.1, t.deliveries ++ Delivery.after id g.1,
        next⟩ : Session (Layer.port settings P))) := by
  rcases goes with ⟨w', m', hgrows, hbound, hbeside, hlike⟩
  rcases readers_after id hlike with ⟨m', hreaders⟩
  have hdeliveries := List.rel_append (h.deliveries_mono hgrows along.deliveries)
    (deliveries_after id hlike)
  exact ⟨w', m', hgrows, ⟨hbound, hbeside, hreaders, hdeliveries, rfl⟩, hlike.reply⟩

/-- A read begins alike in both sessions. -/
theorem Sound.along_startRead (h : c.Sound settings) (along : c.Along w m s t)
    (idle : s.readers = []) (known : (x, y) ∈ w.scopes) (choice : Choice) :
    c.Told w (s.startRead choice x) (t.startRead choice y) := by
  have hgoes := h.start along.beside along.bound known choice
  have hidle := (idle ▸ along.readers).eq_nil
  rcases hf : Layer.start settings choice x s.ambient s.state with ⟨p, a, L⟩
  rcases hg : Layer.start settings choice y t.ambient t.state with ⟨q, b, R⟩
  rw [hf, hg] at hgoes
  rw [Session.startRead_eq hf, Session.startRead_eq hg, idle, hidle, along.next_eq]
  exact h.told along _ _ hgoes

/-- A read that is not behind goes on alike in both sessions. -/
theorem Sound.along_stepRead (h : c.Sound settings) (along : c.Along w 0 s t) {id : Nat}
    {q : Reading Q} {r : Reading P} (left : s.readers = [⟨id, q⟩]) (right : t.readers = [⟨id, r⟩])
    (reads : c.Reads w 0 q r) (choice : Choice) :
    Option.Rel (c.Told w) (s.stepRead choice id) (t.stepRead choice id) := by
  rw [Session.stepRead_only left, Session.stepRead_only right, along.next_eq]
  exact rel_map (h.step reads along.beside along.bound choice) fun f g goes =>
    h.told along id t.next goes

/-- A read that is behind takes a step by itself. -/
theorem Sound.along_catchUp (h : c.Sound settings) (along : c.Along w (m + 1) s t) {id : Nat}
    {q : Reading Q} {r : Reading P} (left : s.readers = [⟨id, q⟩]) (right : t.readers = [⟨id, r⟩])
    (reads : c.Reads w (m + 1) q r) (choice : Choice) :
    ∃ w' s', s.stepRead choice id = some (none, s') ∧ w.Grows w' ∧ c.Along w' m s' t := by
  rcases h.catchUp reads along.beside along.bound choice with
    ⟨w', q', a', L', hstep, hgrows, hbound, hbeside, hreads⟩
  refine ⟨w', ⟨a', L', [⟨id, q'⟩], s.deliveries, s.next⟩, ?_, hgrows, hbound, hbeside, ?_,
    h.deliveries_mono hgrows along.deliveries, along.next_eq⟩
  · rw [Session.stepRead_only left]
    exact (congrArg _ hstep).trans (by simp [Progress.reply, Reader.after, Delivery.after])
  · rw [right]
    exact .busy id hreads

/-! ## Everything else -/

/-- Both sessions do alike what others can do. -/
theorem Sound.along_jointly (h : c.Sound settings) (along : c.Along w m s t) {l : Likeness}
    {a b : Ambient} (moves : Jointly w.toLikeness s.ambient t.ambient l a b) :
    ∃ w' : Bond, w'.toLikeness = l ∧ w.Grows w' ∧
      c.Along w' m { s with ambient := a } { t with ambient := b } := by
  rcases along.bound.jointly moves with ⟨w', hl, hbound, hgrows, hkeeps⟩
  exact ⟨w', hl, hgrows, hbound, h.beside_mono hgrows along.beside,
    h.readers_mono hgrows hkeeps along.readers, h.deliveries_mono hgrows along.deliveries,
    along.next_eq⟩

/-- After an operation with the same result, the sessions are alike. -/
theorem Sound.along_does (h : c.Sound settings) (along : c.Along w m s t) {α : Type}
    {f : α × Ambient × Layer Q} {g : α × Ambient × Layer P} (does : c.Does w f g)
    {d : List (Delivery (Layer.port settings Q))} {e : List (Delivery (Layer.port settings P))}
    (deliveries : List.Forall₂ (c.Delivered w) d e) :
    ∃ w' : Bond, w.Grows w' ∧
      c.Along w' m { s with ambient := f.2.1, state := f.2.2, deliveries := d }
        { t with ambient := g.2.1, state := g.2.2, deliveries := e } ∧ f.1 = g.1 := by
  rcases does with ⟨w', hgrows, hkeeps, hbound, hbeside, heq⟩
  exact ⟨w', hgrows, ⟨hbound, hbeside, h.readers_mono hgrows hkeeps along.readers,
    h.deliveries_mono hgrows deliveries, along.next_eq⟩, heq⟩

/-- Both sessions are connected with the same result. -/
theorem Sound.along_connect (h : c.Sound settings) (along : c.Along w m s t)
    (known : (x, y) ∈ w.scopes) :
    ∃ w' : Bond, w.Grows w' ∧ c.Along w' m (s.connect x).2 (t.connect y).2 ∧
      (s.connect x).1 = (t.connect y).1 :=
  h.along_does along (h.connects along.beside along.bound known) along.deliveries

/-- Both sessions are closed with the same result. -/
theorem Sound.along_close (h : c.Sound settings) (along : c.Along w m s t)
    (known : (x, y) ∈ w.scopes) :
    ∃ w' : Bond, w.Grows w' ∧ c.Along w' m (s.close x).2 (t.close y).2 ∧
      (s.close x).1 = (t.close y).1 :=
  h.along_does along (h.closes along.beside along.bound known) along.deliveries

/-- Deliveries with the same number are found alike. -/
theorem find_delivery {d : List (Delivery (Layer.port settings Q))}
    {e : List (Delivery (Layer.port settings P))} (h : List.Forall₂ (c.Delivered w) d e)
    (id : Nat) :
    Option.Rel (c.Delivered w) (d.find? (·.id = id)) (e.find? (·.id = id)) := by
  induction h with
  | nil => exact .none
  | @cons d e ds es like _ ih =>
      rw [List.find?_cons, List.find?_cons, like.id_eq]
      cases decide (e.id = id) with
      | true => exact .some like
      | false => exact ih

/-- Reports that are alike have the same result in both sessions. -/
theorem Sound.along_report (h : c.Sound settings) (along : c.Along w m s t) (id : Nat)
    {outcome outcome' : Outcome} (like : outcome.Like w.groups outcome') :
    Option.Rel (fun f g => ∃ w' : Bond, w.Grows w' ∧ c.Along w' m f.2 g.2 ∧ f.1 = g.1)
      (s.report id outcome) (t.report id outcome') := by
  have hfind := find_delivery along.deliveries id
  unfold Session.report
  generalize s.deliveries.find? (·.id = id) = d at hfind
  generalize t.deliveries.find? (·.id = id) = e at hfind
  cases hfind with
  | none => exact .none
  | some delivered =>
      refine .some (h.along_does along
        (h.report along.beside along.bound delivered.given like) ?_)
      refine List.rel_filter ?_ along.deliveries
      intro d e hlike
      simp [hlike.id_eq]

/-- Reads that are alike go on by themselves at the same time. -/
theorem Sound.along_wake (h : c.Sound settings) (along : c.Along w m s t) :
    s.wake? = t.wake? := by
  have hreaders := along.readers
  unfold Session.wake?
  generalize s.readers = q at hreaders
  generalize t.readers = r at hreaders
  cases hreaders with
  | idle => rfl
  | busy id reads =>
      have hwake := h.reads_wake reads along.beside
      simp only [List.filterMap_cons, List.filterMap_nil]
      rw [hwake]

end Lining
end Redelivery
