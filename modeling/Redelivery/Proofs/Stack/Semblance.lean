import Redelivery.Proofs.Stack.Binding

/-!
# Sources that do not look at numbers

Scopes and groups are known by numbers here, and these differ between two sides on which the
same happens.  No source can tell: to it, a scope is something that is cancelled or not, and
a tag is something that others put on a part.  So it does alike what it is asked to do alike.

For every source there is a relation that says so: which of its states, its reads and its
receipts differ in such numbers only.

Main definitions:

* `Semblance`, `Semblance.Sound`: such a relation, and that a source cannot leave it.
* `Semblance.Fair`: a change of a source by itself that does not look at numbers.
* `Told`, `Call`: what is told about a read, and what passes between a source and its user.
* `Semblance.recorded`: the same for a source with a journal.

Main results:

* Theorem `Semblance.Sound.recorded`: the same calls reach a source on both sides.
-/

namespace Redelivery

/-- What is found on both sides is related after it was changed on both. -/
theorem rel_map {α β γ δ : Type} {r : α → β → Prop} {R : γ → δ → Prop} {f : α → γ} {g : β → δ}
    {x : Option α} {y : Option β} (h : Option.Rel r x y) (hmap : ∀ a b, r a b → R (f a) (g b)) :
    Option.Rel R (x.map f) (y.map g) := by
  cases h with
  | none => exact .none
  | some h => exact .some (hmap _ _ h)

/-! ## What comes of a read -/

/-- Both answers are the same, or hand out batches that are alike. -/
inductive Answer.Like {ρ ρ' : Type} (groups : List Bool) (receipts : ρ → ρ' → Prop) :
    Answer ρ → Answer ρ' → Prop
  | delivered {x y : Batch} {p : ρ} {q : ρ'} (batch : Batch.Like groups x y)
      (receipt : receipts p q) : Like groups receipts (.delivered x p) (.delivered y q)
  | failed (error : ReadError) : Like groups receipts (.failed error) (.failed error)
  | died (reason : String) : Like groups receipts (.died reason) (.died reason)

/-- Both reads go on, or end alike. -/
inductive Progress.Like {θ θ' ρ ρ' : Type} (groups : List Bool) (reads : θ → θ' → Prop)
    (receipts : ρ → ρ' → Prop) : Progress θ ρ → Progress θ' ρ' → Prop
  | going {p : θ} {q : θ'} (read : reads p q) : Like groups reads receipts (.going p) (.going q)
  | ended {p : Answer ρ} {q : Answer ρ'} (answer : p.Like groups receipts q) :
      Like groups reads receipts (.ended p) (.ended q)

/-- What is told about the end of a read: its error, or the contents that it found. -/
inductive Told where
  | delivered (contents : List Content)
  | failed (error : ReadError)
  | died (reason : String)

/-- What is told of an answer. -/
def Answer.told {ρ : Type} : Answer ρ → Told
  | .delivered batch _ => .delivered (batch.map Part.content)
  | .failed error => .failed error
  | .died reason => .died reason

theorem Answer.Like.told_eq {ρ ρ' : Type} {groups : List Bool} {receipts : ρ → ρ' → Prop}
    {p : Answer ρ} {q : Answer ρ'} (h : p.Like groups receipts q) : p.told = q.told := by
  cases h with
  | delivered batch => exact congrArg Told.delivered batch.contents_eq
  | failed | died => rfl

/-! ## Sources -/

/-- Which states, reads and receipts of a source are alike, given what is known. -/
structure Semblance (P : Port) where
  State : Likeness → P.State → P.State → Prop
  Read : Likeness → P.Read → P.Read → Prop
  Receipt : Likeness → P.Receipt → P.Receipt → Prop

namespace Semblance

variable {P : Port} (σ : Semblance P)

/-- After both sides have done alike what a source can do, a read has got as far on both. -/
def Turns (l : Likeness) (a b : Ambient)
    (x y : Progress P.Read P.Receipt × Ambient × P.State) : Prop :=
  ∃ l', Ambient.Jointly l a b l' x.2.1 y.2.1 ∧ σ.State l' x.2.2 y.2.2 ∧
    x.1.Like l'.groups (σ.Read l') (σ.Receipt l') y.1

/-- After both sides have done alike what a source can do, the result is the same on both. -/
def Results {α : Type} (l : Likeness) (a b : Ambient) (x y : α × Ambient × P.State) : Prop :=
  ∃ l', Ambient.Jointly l a b l' x.2.1 y.2.1 ∧ σ.State l' x.2.2 y.2.2 ∧ x.1 = y.1

/-- A change of the source by itself, with a batch, that does not look at numbers. -/
def Fair (change : Batch → P.State → P.State) : Prop :=
  ∀ l x y s t, Batch.Like l.groups x y → σ.State l s t → σ.State l (change x s) (change y t)

/-- The source does alike what it is asked to do alike.  What is alike stays so as more becomes
known. -/
structure Sound : Prop where
  state_mono : ∀ {l l' s t}, l.Grows l' → σ.State l s t → σ.State l' s t
  read_mono : ∀ {l l' p q}, l.Grows l' → σ.Read l p q → σ.Read l' p q
  receipt_mono : ∀ {l l' p q}, l.Grows l' → σ.Receipt l p q → σ.Receipt l' p q
  start : ∀ {l a b s t x y} (choice : Choice), σ.State l s t → Ambient.Alike l a b →
    (x, y) ∈ l.scopes → σ.Turns l a b (P.start choice x a s) (P.start choice y b t)
  step : ∀ {l a b s t p q} (choice : Choice), σ.State l s t → Ambient.Alike l a b →
    σ.Read l p q → Option.Rel (σ.Turns l a b) (P.step choice p a s) (P.step choice q b t)
  wake : ∀ {l s t p q}, σ.State l s t → σ.Read l p q → P.wake p s = P.wake q t
  connect : ∀ {l a b s t x y}, σ.State l s t → Ambient.Alike l a b → (x, y) ∈ l.scopes →
    σ.Results l a b (P.connect x a s) (P.connect y b t)
  close : ∀ {l a b s t x y}, σ.State l s t → Ambient.Alike l a b → (x, y) ∈ l.scopes →
    σ.Results l a b (P.close x a s) (P.close y b t)
  settle : ∀ {l a b s t p q}, σ.State l s t → Ambient.Alike l a b → σ.Receipt l p q →
    σ.Results l a b (P.settle p .processed a s) (P.settle q .processed b t)

end Semblance

/-! ## Sources with a journal -/

/-- What passes between a source and its user. -/
inductive Call where
  | connected (result : Except ReadError Unit)
  | closed (result : Except ReadError Unit)
  | began
  | ended (read : Nat) (answer : Told)
  | reported (delivery : Nat) (outcome : Outcome) (settlement : Settlement)

/-- What an exchange is, but for the numbers of scopes and groups. -/
def Exchange.call {ρ : Type} : Exchange ρ → Call
  | .connected _ result => .connected result
  | .closed _ result => .closed result
  | .began _ => .began
  | .ended read answer => .ended read answer.told
  | .reported delivery outcome settlement => .reported delivery outcome settlement

/-- What has passed, but for the numbers of scopes and groups. -/
def Journal.calls {ρ : Type} (journal : Journal ρ) : List Call := journal.map Exchange.call

/-- The same has passed on both sides. -/
structure Journal.Like {ρ ρ' : Type} (journal : Journal ρ) (journal' : Journal ρ') : Prop where
  calls_eq : journal.calls = journal'.calls
  began_eq : journal.callers.length = journal'.callers.length
  issued_eq : journal.issued.length = journal'.issued.length

namespace Journal.Like

variable {ρ ρ' : Type} {journal more : Journal ρ} {journal' more' : Journal ρ'}

theorem append (h : journal.Like journal') (h' : more.Like more') :
    Journal.Like (journal ++ more) (journal' ++ more') where
  calls_eq := by
    rw [calls, calls, List.map_append, List.map_append]
    exact congrArg₂ (· ++ ·) h.calls_eq h'.calls_eq
  began_eq := by
    rw [callers_append, callers_append, List.length_append, List.length_append, h.began_eq,
      h'.began_eq]
  issued_eq := by
    rw [issued_append, issued_append, List.length_append, List.length_append, h.issued_eq,
      h'.issued_eq]

end Journal.Like

/-- The same is written down about reads that end alike. -/
theorem Progress.Like.exchanges {θ θ' ρ ρ' : Type} {groups : List Bool} {reads : θ → θ' → Prop}
    {receipts : ρ → ρ' → Prop} {x : Progress θ ρ} {y : Progress θ' ρ'}
    (h : x.Like groups reads receipts y) (read : Nat) :
    Journal.Like (x.exchanges read) (y.exchanges read) := by
  cases h with
  | going => exact ⟨rfl, rfl, rfl⟩
  | ended answer =>
      refine ⟨congrArg (fun told => [Call.ended read told]) answer.told_eq, rfl, ?_⟩
      cases answer <;> rfl

/-- Both have the same number, and their values are alike. -/
structure Numbered.Like {α β : Type} (values : α → β → Prop) (x : Numbered α) (y : Numbered β) :
    Prop where
  number_eq : x.number = y.number
  value : values x.value y.value

/-- Reads that get as far, and what they hand out, are given the same numbers. -/
theorem Progress.Like.numbered {θ θ' ρ ρ' : Type} {groups : List Bool} {reads : θ → θ' → Prop}
    {receipts : ρ → ρ' → Prop} {x : Progress θ ρ} {y : Progress θ' ρ'}
    (h : x.Like groups reads receipts y) (read delivery : Nat) :
    (x.numbered read delivery).Like groups (Numbered.Like reads) (Numbered.Like receipts)
      (y.numbered read delivery) := by
  cases h with
  | going h => exact .going ⟨rfl, h⟩
  | ended answer =>
      cases answer with
      | delivered batch receipt => exact .ended (.delivered batch ⟨rfl, receipt⟩)
      | failed error => exact .ended (.failed error)
      | died reason => exact .ended (.died reason)

namespace Semblance

variable {P : Port} {σ : Semblance P}

/-- The source is alike, and so is what has passed. -/
def recorded (σ : Semblance P) : Semblance P.recorded where
  State l s t := σ.State l s.state t.state ∧ s.journal.Like t.journal
  Read l := Numbered.Like (σ.Read l)
  Receipt l := Numbered.Like (σ.Receipt l)

/-- The same calls reach a source on both sides. -/
theorem Sound.recorded (h : σ.Sound) : σ.recorded.Sound where
  state_mono grows like := ⟨h.state_mono grows like.1, like.2⟩
  read_mono grows like := ⟨like.number_eq, h.read_mono grows like.value⟩
  receipt_mono grows like := ⟨like.number_eq, h.receipt_mono grows like.value⟩
  start choice like alike known := by
    rcases h.start choice like.1 alike known with ⟨l', hmoves, hstate, hprogress⟩
    refine ⟨l', hmoves, ⟨hstate, like.2.append (.append ⟨rfl, rfl, rfl⟩ ?_)⟩, ?_⟩
    · rw [like.2.began_eq]
      exact hprogress.exchanges _
    · simp only [Port.recorded, like.2.began_eq, like.2.issued_eq]
      exact hprogress.numbered _ _
  step choice like alike read := by
    refine rel_map (h.step choice like.1 alike read.value) ?_
    rintro ⟨progress, a, s⟩ ⟨progress', b, t⟩ ⟨l', hmoves, hstate, hprogress⟩
    refine ⟨l', hmoves, ⟨hstate, like.2.append ?_⟩, ?_⟩
    · simp only [read.number_eq]
      exact hprogress.exchanges _
    · simp only [read.number_eq, like.2.issued_eq]
      exact hprogress.numbered _ _
  wake like read := h.wake like.1 read.value
  connect like alike known := by
    rcases h.connect like.1 alike known with ⟨l', hmoves, hstate, hresult⟩
    refine ⟨l', hmoves, ⟨hstate, like.2.append ⟨?_, rfl, rfl⟩⟩, hresult⟩
    exact congrArg (fun result => [Call.connected result]) hresult
  close like alike known := by
    rcases h.close like.1 alike known with ⟨l', hmoves, hstate, hresult⟩
    refine ⟨l', hmoves, ⟨hstate, like.2.append ⟨?_, rfl, rfl⟩⟩, hresult⟩
    exact congrArg (fun result => [Call.closed result]) hresult
  settle {l a b s t p q} like alike receipt := by
    rcases h.settle like.1 alike receipt.value with ⟨l', hmoves, hstate, hresult⟩
    refine ⟨l', hmoves, ⟨hstate, like.2.append ⟨?_, rfl, rfl⟩⟩, hresult⟩
    exact congrArg₂ (fun number result => [Call.reported number .processed result])
      receipt.number_eq hresult

end Semblance

end Redelivery
