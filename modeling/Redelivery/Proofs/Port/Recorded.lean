import Redelivery.Proofs.Port.Turn

/-!
# A port with a journal

What passes between a port and those who use it can be written down without the port
or its users noticing: every connect and close with its result, every read that begins
and its answer when it ends, every report on what was delivered.  Deliveries are
numbered in their order, and the receipt that is handed out carries the number, so
that a report can be told to be one on that delivery.

Main definitions:

* `Exchange`, `Journal`: what is written down.
* `Journal.callers`, `Journal.issued`, `Journal.reports`, `Journal.broken`: what it tells.
* `Port.recorded`: a port with a journal.

Main results:

* Theorems `Port.recorded_turn`, `Port.recorded_connect`, `Port.recorded_close`,
  `Port.recorded_settle`: the operations of the recorded port are those of the port itself,
  written down.
-/

namespace Redelivery

/-! ## Journals -/

/-- What was found in a list is found there when the list has become longer. -/
theorem getElem?_append_of_eq_some {α : Type} {before : List α} {k : Nat} {x : α}
    (h : before[k]? = some x) (more : List α) : (before ++ more)[k]? = some x := by
  rw [List.getElem?_append_left (List.getElem?_eq_some_iff.1 h).1]
  exact h

/-- What is found in a list with a new last entry was there before, or is that entry. -/
theorem getElem?_append_singleton_eq_some {α : Type} {before : List α} {k : Nat} {x last : α}
    (h : (before ++ [last])[k]? = some x) :
    before[k]? = some x ∨ k = before.length ∧ last = x := by
  rw [List.getElem?_append] at h
  split at h
  case isTrue => exact .inl h
  case isFalse hlt =>
    rcases List.getElem?_eq_some_iff.1 h with ⟨hk, hx⟩
    rw [List.length_singleton] at hk
    exact .inr ⟨by omega, by simpa using hx⟩

/-- What passes between a port and those who use it.  Reads and deliveries are numbered,
each in their order. -/
inductive Exchange (ρ : Type) where
  | connected (caller : Scope) (result : Except ReadError Unit)
  | closed (caller : Scope) (result : Except ReadError Unit)
  | began (caller : Scope)
  | ended (read : Nat) (answer : Answer ρ)
  | reported (delivery : Nat) (outcome : Outcome) (settlement : Settlement)

/-- What has passed, from the first to the last. -/
abbrev Journal (ρ : Type) := List (Exchange ρ)

namespace Exchange

variable {ρ : Type}

/-- The scope in which a read began. -/
def callers : Exchange ρ → List Scope
  | .began caller => [caller]
  | _ => []

/-- What was handed out. -/
def issued : Exchange ρ → List (Batch × ρ)
  | .ended _ (.delivered batch receipt) => [(batch, receipt)]
  | _ => []

/-- The report on what was handed out. -/
def reports : Exchange ρ → List (Nat × Outcome)
  | .reported delivery outcome _ => [(delivery, outcome)]
  | _ => []

/-- The read, if it broke off. -/
def broken : Exchange ρ → List Nat
  | .ended read (.died _) => [read]
  | _ => []

end Exchange

namespace Journal

variable {ρ : Type}

/-- The scopes in which reads began. -/
def callers (journal : Journal ρ) : List Scope := journal.flatMap Exchange.callers

/-- What was handed out. -/
def issued (journal : Journal ρ) : List (Batch × ρ) := journal.flatMap Exchange.issued

/-- The reports on what was handed out. -/
def reports (journal : Journal ρ) : List (Nat × Outcome) := journal.flatMap Exchange.reports

/-- The reads that broke off. -/
def broken (journal : Journal ρ) : List Nat := journal.flatMap Exchange.broken

@[simp]
theorem callers_append (journal more : Journal ρ) :
    callers (journal ++ more) = callers journal ++ callers more :=
  List.flatMap_append

@[simp]
theorem issued_append (journal more : Journal ρ) :
    issued (journal ++ more) = issued journal ++ issued more :=
  List.flatMap_append

@[simp]
theorem reports_append (journal more : Journal ρ) :
    reports (journal ++ more) = reports journal ++ reports more :=
  List.flatMap_append

@[simp]
theorem broken_append (journal more : Journal ρ) :
    broken (journal ++ more) = broken journal ++ broken more :=
  List.flatMap_append

@[simp]
theorem callers_singleton (exchange : Exchange ρ) : callers [exchange] = exchange.callers :=
  List.flatMap_singleton ..

@[simp]
theorem issued_singleton (exchange : Exchange ρ) : issued [exchange] = exchange.issued :=
  List.flatMap_singleton ..

@[simp]
theorem reports_singleton (exchange : Exchange ρ) : reports [exchange] = exchange.reports :=
  List.flatMap_singleton ..

@[simp]
theorem broken_singleton (exchange : Exchange ρ) : broken [exchange] = exchange.broken :=
  List.flatMap_singleton ..

end Journal

/-! ## The recorded port -/

/-- A thing with a number. -/
structure Numbered (α : Type) where
  number : Nat
  value : α

/-- The state of a port, with the journal. -/
structure Recorded (P : Port) where
  journal : Journal P.Receipt
  state : P.State

namespace Progress

variable {θ ρ : Type}

/-- The read is numbered, or what it hands out. -/
def numbered (read delivery : Nat) : Progress θ ρ → Progress (Numbered θ) (Numbered ρ)
  | .going r => .going ⟨read, r⟩
  | .ended (.delivered batch receipt) => .ended (.delivered batch ⟨delivery, receipt⟩)
  | .ended (.failed error) => .ended (.failed error)
  | .ended (.died reason) => .ended (.died reason)

/-- What is written down about a read. -/
def exchanges (read : Nat) : Progress θ ρ → Journal ρ
  | .going _ => []
  | .ended answer => [.ended read answer]

/-- What is handed out. -/
def issued : Progress θ ρ → List (Batch × ρ)
  | .ended (.delivered batch receipt) => [(batch, receipt)]
  | _ => []

/-- The read, if it breaks off. -/
def broken (read : Nat) : Progress θ ρ → List Nat
  | .ended (.died _) => [read]
  | _ => []

@[simp]
theorem issued_numbered (read delivery : Nat) (progress : Progress θ ρ) :
    (progress.numbered read delivery).issued =
      progress.issued.map fun x => (x.1, ⟨delivery, x.2⟩) := by
  cases progress with
  | going r => rfl
  | ended answer => cases answer <;> rfl

@[simp]
theorem callers_exchanges (read : Nat) (progress : Progress θ ρ) :
    (progress.exchanges read).callers = [] := by
  cases progress <;> rfl

@[simp]
theorem issued_exchanges (read : Nat) (progress : Progress θ ρ) :
    (progress.exchanges read).issued = progress.issued := by
  cases progress with
  | going r => rfl
  | ended answer => cases answer <;> rfl

@[simp]
theorem reports_exchanges (read : Nat) (progress : Progress θ ρ) :
    (progress.exchanges read).reports = [] := by
  cases progress <;> rfl

@[simp]
theorem broken_exchanges (read : Nat) (progress : Progress θ ρ) :
    (progress.exchanges read).broken = progress.broken read := by
  cases progress with
  | going r => rfl
  | ended answer => cases answer <;> rfl

end Progress

namespace Port

variable {P : Port}

/-- The port with a journal of all that passes. -/
abbrev recorded (P : Port) : Port where
  State := Recorded P
  Read := Numbered P.Read
  Receipt := Numbered P.Receipt
  connect caller a s :=
    let (result, a, state) := P.connect caller a s.state
    (result, a, ⟨s.journal ++ [.connected caller result], state⟩)
  close caller a s :=
    let (result, a, state) := P.close caller a s.state
    (result, a, ⟨s.journal ++ [.closed caller result], state⟩)
  start choice caller a s :=
    let number := s.journal.callers.length
    let (progress, a, state) := P.start choice caller a s.state
    (progress.numbered number s.journal.issued.length, a,
      ⟨s.journal ++ ([.began caller] ++ progress.exchanges number), state⟩)
  step choice read a s :=
    (P.step choice read.value a s.state).map fun (progress, a, state) =>
      (progress.numbered read.number s.journal.issued.length, a,
        ⟨s.journal ++ progress.exchanges read.number, state⟩)
  wake read s := P.wake read.value s.state
  settle receipt outcome a s :=
    let (settlement, a, state) := P.settle receipt.value outcome a s.state
    (settlement, a, ⟨s.journal ++ [.reported receipt.number outcome settlement], state⟩)

namespace Point

/-- Where the read of the port itself stands. -/
def plain : P.recorded.Point → P.Point
  | .outside caller => .outside caller
  | .inside read => .inside read.value

/-- The number of the read. -/
def number (journal : Journal P.Receipt) : P.recorded.Point → Nat
  | .outside _ => journal.callers.length
  | .inside read => read.number

/-- What is written down as the read takes its turn. -/
def exchanges {ρ : Type} : P.Point → Journal ρ
  | .outside caller => [.began caller]
  | .inside _ => []

@[simp]
theorem issued_exchanges {ρ : Type} (point : P.Point) :
    (point.exchanges : Journal ρ).issued = [] := by
  cases point <;> rfl

@[simp]
theorem reports_exchanges {ρ : Type} (point : P.Point) :
    (point.exchanges : Journal ρ).reports = [] := by
  cases point <;> rfl

@[simp]
theorem broken_exchanges {ρ : Type} (point : P.Point) :
    (point.exchanges : Journal ρ).broken = [] := by
  cases point <;> rfl

end Point

/-- A turn of a read of the recorded port is one of the port itself, written down. -/
theorem recorded_turn {choice : Choice} {point : P.recorded.Point} {a a' : Ambient}
    {s s' : Recorded P} {progress : Progress (Numbered P.Read) (Numbered P.Receipt)}
    (h : P.recorded.turn choice point a s = some (progress, a', s')) :
    ∃ plain, P.turn choice point.plain a s.state = some (plain, a', s'.state) ∧
      progress = plain.numbered (point.number s.journal) s.journal.issued.length ∧
      s'.journal = s.journal ++
        (point.plain.exchanges ++ plain.exchanges (point.number s.journal)) := by
  cases point with
  | outside caller =>
      have hstart := Option.some.inj h
      rcases hstart with ⟨rfl, rfl, rfl⟩
      exact ⟨_, rfl, rfl, rfl⟩
  | inside read =>
      have hstep := Option.map_eq_some_iff.1 h
      rcases hstep with ⟨⟨plain, b, state⟩, hplain, heq⟩
      simp only [Prod.mk.injEq] at heq
      rcases heq with ⟨rfl, rfl, rfl⟩
      exact ⟨plain, hplain, rfl, rfl⟩

/-- Connecting the recorded port connects the port itself, and is written down. -/
theorem recorded_connect {caller : Scope} {a a' : Ambient} {s s' : Recorded P}
    {result : Except ReadError Unit}
    (h : P.recorded.connect caller a s = (result, a', s')) :
    P.connect caller a s.state = (result, a', s'.state) ∧
      s'.journal = s.journal ++ [.connected caller result] := by
  rcases h with ⟨rfl, rfl, rfl⟩
  exact ⟨rfl, rfl⟩

/-- Closing the recorded port closes the port itself, and is written down. -/
theorem recorded_close {caller : Scope} {a a' : Ambient} {s s' : Recorded P}
    {result : Except ReadError Unit}
    (h : P.recorded.close caller a s = (result, a', s')) :
    P.close caller a s.state = (result, a', s'.state) ∧
      s'.journal = s.journal ++ [.closed caller result] := by
  rcases h with ⟨rfl, rfl, rfl⟩
  exact ⟨rfl, rfl⟩

/-- A report to the recorded port is passed on to the port itself, and written down. -/
theorem recorded_settle {receipt : Numbered P.Receipt} {outcome : Outcome} {a a' : Ambient}
    {s s' : Recorded P} {settlement : Settlement}
    (h : P.recorded.settle receipt outcome a s = (settlement, a', s')) :
    P.settle receipt.value outcome a s.state = (settlement, a', s'.state) ∧
      s'.journal = s.journal ++ [.reported receipt.number outcome settlement] := by
  rcases h with ⟨rfl, rfl, rfl⟩
  exact ⟨rfl, rfl⟩

/-- In a turn of the recorded port the journal tells what is handed out, under which
number, and no report. -/
theorem recorded_turn_issued {choice : Choice} {point : P.recorded.Point} {a a' : Ambient}
    {s s' : Recorded P} {progress : Progress (Numbered P.Read) (Numbered P.Receipt)}
    (h : P.recorded.turn choice point a s = some (progress, a', s')) :
    s'.journal.issued = s.journal.issued ++ progress.issued.map (fun x => (x.1, x.2.value)) ∧
      s'.journal.reports = s.journal.reports ∧
      ∀ x ∈ progress.issued, x.2.number = s.journal.issued.length := by
  rcases recorded_turn h with ⟨plain, -, rfl, hjournal⟩
  rw [hjournal]
  refine ⟨by simp [Function.comp_def], by simp, ?_⟩
  intro x hx
  simp only [Progress.issued_numbered, List.mem_map] at hx
  rcases hx with ⟨y, -, rfl⟩
  rfl

/-! ## What the recorded port promises -/

/-- The recorded port is as steady as the port itself. -/
theorem Steady.recorded (h : P.Steady) : P.recorded.Steady where
  turn hturn := by
    rcases recorded_turn hturn with ⟨plain, hplain, -, -⟩
    exact h.turn hplain
  connect caller a s := h.connect caller a s.state
  close caller a s := h.close caller a s.state
  settle receipt outcome a s := h.settle receipt.value outcome a s.state

/-- The recorded port touches what the port itself does. -/
theorem Aloof.recorded (h : P.Aloof) : P.recorded.Aloof where
  turn hturn := by
    rcases recorded_turn hturn with ⟨plain, hplain, -, -⟩
    exact h.turn hplain
  connect caller a s := h.connect caller a s.state
  close caller a s := h.close caller a s.state
  settle receipt outcome a s := h.settle receipt.value outcome a s.state

/-- What the recorded port leads to, the port itself does. -/
theorem Acts.plain {a a' : Ambient} {s s' : P.recorded.State} (h : P.recorded.Acts a s a' s') :
    P.Acts a (Recorded.state s) a' (Recorded.state s') := by
  cases h with
  | turn turn =>
      rcases recorded_turn turn with ⟨plain, hplain, -, -⟩
      exact .turn hplain
  | connect connects => exact .connect (recorded_connect connects).1
  | close closes => exact .close (recorded_close closes).1
  | settle settles => exact .settle (recorded_settle settles).1

/-- A read of the recorded port is a read of the port itself in the same scope. -/
theorem RunsIn.plain {scope : Scope} {read : P.recorded.Read} (h : P.recorded.RunsIn scope read) :
    P.RunsIn scope read.value := by
  induction h with
  | @start choice a s read a' s' hstart =>
      have hturn : P.recorded.turn choice (.outside scope) a s = some (.going read, a', s') :=
        congrArg some hstart
      rcases recorded_turn hturn with ⟨found, hfound, hread, -⟩
      cases found with
      | going r =>
          obtain rfl := Progress.going.inj hread
          exact .start (Option.some.inj hfound)
      | ended answer => cases answer <;> cases hread
  | @step choice read a s read' a' s' _ hstep ih =>
      have hturn : P.recorded.turn choice (.inside read) a s = some (.going read', a', s') := hstep
      rcases recorded_turn hturn with ⟨found, hfound, hread, -⟩
      cases found with
      | going r =>
          obtain rfl := Progress.going.inj hread
          exact .step ih hfound
      | ended answer => cases answer <;> cases hread

/-- The recorded port is as prompt as the port itself. -/
theorem Prompt.recorded (h : P.Prompt) : P.recorded.Prompt := by
  intro scope read hread a s hcancelled
  rcases h scope read.value hread.plain a s.state hcancelled with ⟨choice, hstep⟩
  exact ⟨choice, by simpa using hstep⟩

theorem Point.Within.plain {scope : Scope} {point : P.recorded.Point} (h : point.Within scope) :
    point.plain.Within scope := by
  cases point with
  | outside caller => exact h
  | inside read => exact RunsIn.plain h

/-- A failure of the recorded port is one of the port itself. -/
theorem recorded_turn_failed {choice : Choice} {point : P.recorded.Point} {a a' : Ambient}
    {s s' : Recorded P} {error : ReadError}
    (h : P.recorded.turn choice point a s = some (.ended (.failed error), a', s')) :
    P.turn choice point.plain a s.state = some (.ended (.failed error), a', s'.state) := by
  rcases recorded_turn h with ⟨plain, hplain, heq, -⟩
  cases plain with
  | going read => cases heq
  | ended answer =>
      cases answer with
      | delivered batch receipt | died reason => cases heq
      | failed found =>
          cases heq
          exact hplain

/-- The recorded port is as candid as the port itself. -/
theorem Candid.recorded (h : P.Candid) : P.recorded.Candid where
  cancelled hwithin hturn := h.cancelled hwithin.plain (recorded_turn_failed hturn)
  timeout hturn := h.timeout (recorded_turn_failed hturn)

end Port

end Redelivery
