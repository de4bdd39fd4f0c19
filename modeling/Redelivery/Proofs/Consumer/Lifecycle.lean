import Redelivery.Proofs.Consumer.Recorded
import Redelivery.Proofs.Layer.EndOfStream
import Redelivery.Proofs.Source.Script

/-!
# The life of a consumer

A consumer connects, reads and, in the end, closes its port, in that order.  Once shutdown is
requested, or the port has told of its end, it neither connects nor begins to read; a batch
that it is given all the same by a read in progress is processed and reported on like any
other.  After a read has lost the connection, it connects before it reads again.  It closes
the port once, in a scope that nobody has cancelled, when all its tasks have ended.

What a move writes down depends on where the loop stands, and says where it stands next.
`Consumer.Writes` lists this, and the rest is read off that list.

Main definitions:

* `Exchange.Calls`, `Exchange.Loses`, `Exchange.Links`, `Exchange.Closes`: kinds of exchanges.
* `Journal.Quiet`, `Journal.Relinks`: the order of what is written down.
* `Consumer.Writes`: what a move writes down.
* `Consumer.Orderly`: the order so far, and where the loop stands.
* `Consumer.Departs`: how a consumer comes to its end.

Main results:

* Theorem `Consumer.Move.writes`: what every move writes down.
* Theorem `Consumer.lives_in_order`: the order of a consumer's life.
-/

namespace Redelivery

/-! ## The order of exchanges -/

namespace Exchange

variable {ρ : Type}

/-- Somebody connects, or begins to read. -/
inductive Calls : Exchange ρ → Prop
  | connected (caller : Scope) (result : Except ReadError Unit) : Calls (.connected caller result)
  | began (caller : Scope) : Calls (.began caller)

/-- A read has lost the connection. -/
inductive Loses : Exchange ρ → Prop
  | ended (read : Nat) (reason : String) : Loses (.ended read (.failed (.connection reason)))

/-- Connecting has succeeded. -/
inductive Links : Exchange ρ → Prop
  | connected (caller : Scope) : Links (.connected caller (.ok ()))

/-- The port is closed. -/
inductive Closes : Exchange ρ → Prop
  | closed (caller : Scope) (result : Except ReadError Unit) : Closes (.closed caller result)

end Exchange

namespace Journal

variable {ρ : Type}

/-- After somebody was told of the end, nobody connects or begins to read. -/
def Quiet (journal : Journal ρ) : Prop :=
  journal.Pairwise fun earlier later => earlier.SaysClosed → ¬later.Calls

/-- Whenever a read has lost the connection, it was established again after that. -/
def Linked (journal : Journal ρ) : Prop :=
  ∀ before lost after, journal = before ++ lost :: after → lost.Loses →
    ∃ exchange ∈ after, exchange.Links

/-- Before a read begins, any connection that a read has lost is established again. -/
def Relinks (journal : Journal ρ) : Prop :=
  ∀ before caller after, journal = before ++ .began caller :: after → Linked before

/-- What comes before an entry of a longer list comes before it in the list as it was, or is
all of that list. -/
theorem split_concat {α : Type} {before after list : List α} {x last : α}
    (h : list ++ [last] = before ++ x :: after) :
    before = list ∧ x = last ∧ after = [] ∨
      ∃ rest, after = rest ++ [last] ∧ list = before ++ x :: rest := by
  rcases List.eq_nil_or_concat after with rfl | ⟨rest, other, rfl⟩
  · rcases List.append_inj' h rfl with ⟨rfl, hlast⟩
    exact .inl ⟨rfl, (List.singleton_inj.1 hlast).symm, rfl⟩
  · rw [List.concat_eq_append, ← List.cons_append, ← List.append_assoc] at h
    rcases List.append_inj' h rfl with ⟨hlist, hlast⟩
    rw [List.singleton_inj.1 hlast]
    exact .inr ⟨rest, List.concat_eq_append, hlist⟩

/-- The connection is not lost by anything but a read that says so. -/
theorem Linked.concat {journal : Journal ρ} (h : journal.Linked) {exchange : Exchange ρ}
    (keeps : ¬exchange.Loses) : Linked (journal ++ [exchange]) := by
  intro before lost after hsplit hlost
  rcases split_concat hsplit with ⟨-, rfl, -⟩ | ⟨rest, rfl, hbefore⟩
  · exact absurd hlost keeps
  · rcases h before lost rest hbefore hlost with ⟨link, hmem, hlinks⟩
    exact ⟨link, List.mem_append_left _ hmem, hlinks⟩

/-- Once connecting has succeeded, the connection is established. -/
theorem linked_concat (journal : Journal ρ) {exchange : Exchange ρ} (links : exchange.Links) :
    Linked (journal ++ [exchange]) := by
  intro before lost after hsplit hlost
  rcases split_concat hsplit with ⟨-, rfl, -⟩ | ⟨rest, rfl, -⟩
  · cases links with
    | connected => cases hlost
  · exact ⟨exchange, by simp, links⟩

/-- Reads begin only while the connection is established. -/
theorem Relinks.concat {journal : Journal ρ} (h : journal.Relinks) {exchange : Exchange ρ}
    (linked : ∀ caller, exchange = .began caller → journal.Linked) :
    Relinks (journal ++ [exchange]) := by
  intro before caller after hsplit
  rcases split_concat hsplit with ⟨rfl, hbegan, -⟩ | ⟨rest, -, hbefore⟩
  · exact linked caller hbegan.symm
  · exact h before caller rest hbefore

end Journal

/-! ## Where the loop stands -/

/-- Where the loop stands after it has connected. -/
def Consumer.Phase.connected (due : Nat) : Except ReadError Unit → Consumer.Phase
  | .ok () => .ready
  | .error .closed => .joining
  | .error _ => .pausing due

/-- The loop is past its reads. -/
def Consumer.Phase.over : Consumer.Phase → Prop
  | .joining | .finished => True
  | _ => False

/-- After it has connected, the loop is past its reads only if it was told of the end. -/
theorem Consumer.Phase.eq_closed_of_connected {due : Nat} {result : Except ReadError Unit}
    (h : (Consumer.Phase.connected due result).over) : result = .error .closed := by
  rcases result with error | ⟨⟩
  · cases error with
    | closed => rfl
    | connection | timeout | cancelled => cases h
  · cases h

/-- Where the loop stands after a turn of its read. -/
def Progress.leads {θ ρ : Type} (id due : Nat) : Progress θ ρ → Consumer.Phase
  | .going _ => .reading id
  | .ended (.delivered _ _) => .ready
  | .ended (.failed .closed) => .joining
  | .ended (.failed (.connection _)) => .pausing due
  | .ended (.failed _) => .ready
  | .ended (.died _) => .died

/-- After a turn of its read, the loop is past its reads only if it was told of the end. -/
theorem Progress.eq_closed_of_leads {θ ρ : Type} {id due : Nat} {progress : Progress θ ρ}
    (h : (progress.leads id due).over) : progress = .ended (.failed .closed) := by
  rcases progress with read | ⟨batch, receipt⟩ | error | reason
  · cases h
  · cases h
  · cases error with
    | closed => rfl
    | connection | timeout | cancelled => cases h
  · cases h

namespace Consumer

variable {P : Port} {W : Processor}

theorem phase_afterConnect (c : Consumer P W) (session : Session P)
    (result : Except ReadError Unit) : (c.afterConnect session result).phase =
      .connected (session.ambient.now + c.reconnectDelay.clockMillis) result := by
  rcases result with error | ⟨⟩
  · cases error <;> rfl
  · rfl

theorem phase_afterRead (c : Consumer P.recorded W) (id : Nat) (session : Session P.recorded)
    (number delivery : Nat) (plain : Progress P.Read P.Receipt) :
    (c.afterRead id session (plain.numbered number delivery).reply).phase =
      plain.leads id (session.ambient.now + c.reconnectDelay.clockMillis) := by
  rcases plain with read | ⟨batch, receipt⟩ | error | reason
  · rfl
  · rfl
  · cases error <;> rfl
  · rfl

/-- The scope in which a consumer closes its port. -/
def lastScope (c : Consumer P W) : Scope := (c.session.scope false).1

/-- What a move writes down, and where the loop stands before and after. -/
inductive Writes (c c' : Consumer P.recorded W) : Journal P.Receipt → Prop
  /-- Nothing is written down, and nothing begins. -/
  | nothing (phase : c'.phase = c.phase ∨ c.phase.between ∧
      (c.stopping = true ∧ c'.phase = .joining ∨ c'.phase = .connecting)) : Writes c c' []
  | connects {caller : Scope} {result : Except ReadError Unit} {due : Nat}
      (phase : c.phase = .connecting) (going : c.stopping = false)
      (next : c'.phase = .connected due result) : Writes c c' [.connected caller result]
  /-- The only read takes a turn. -/
  | turns {point : P.Point} {plain : Progress P.Read P.Receipt} {number id due : Nat}
      (phase : c.phase = .ready ∧ c.stopping = false ∨
        c.phase = .reading id ∧ ∃ read, point = .inside read)
      (next : c'.phase = plain.leads id due) :
      Writes c c' (point.exchanges ++ plain.exchanges number)
  /-- All tasks have ended, and the port is closed. -/
  | closes {result : Except ReadError Unit} (phase : c.phase = .joining) (tasks : c.tasks = [])
      (endings : c.endings = []) (next : c'.phase = .finished) :
      Writes c c' [.closed c.lastScope result]
  /-- A task reports. -/
  | reports {number : Nat} {outcome : Outcome} {settlement : Settlement} (tasks : c.tasks ≠ [])
      (phase : c'.phase = c.phase) : Writes c c' [.reported number outcome settlement]

/-- Every move adds to the journal what is listed. -/
theorem Move.writes {changes : (Recorded P → Recorded P) → Prop}
    (own : ∀ f, changes f → Recorded.Changes f) {c c' : Consumer P.recorded W}
    (move : Move changes c c') (agrees : c.Agrees) :
    ∃ more, c'.journal = c.journal ++ more ∧ c.Writes c' more := by
  have hreaders := agrees.readers
  have hsame : c.journal = c.journal ++ [] := (List.append_nil _).symm
  cases move with
  | changes hown =>
      rcases own _ hown with ⟨g, rfl⟩
      exact ⟨[], hsame, .nothing (.inl rfl)⟩
  | elapses grows => exact ⟨[], hsame, .nothing (.inl rfl)⟩
  | acts deed =>
  cases deed with
  | stops between stopping =>
      exact ⟨[], hsame, .nothing (.inr ⟨between, .inl ⟨stopping, rfl⟩⟩)⟩
  | resumes phase =>
      exact ⟨[], hsame, .nothing (.inr ⟨by simp [phase, Phase.between], .inr rfl⟩)⟩
  | tallies | works => exact ⟨[], hsame, .nothing (.inl rfl)⟩
  | @connects result session phase going connects =>
      refine ⟨[.connected c.shutdown result], ?_, .connects phase going (phase_afterConnect ..)⟩
      rw [journal, session_afterConnect]
      exact (Port.recorded_connect (Session.connect_eq connects)).2
  | @begins choice reply session phase going reads =>
      rw [phase] at hreaders
      rcases startRead_turn (List.map_eq_nil_iff.1 hreaders) reads with ⟨progress, turn, rfl, -⟩
      rcases Port.recorded_turn turn with ⟨plain, -, rfl, hjournal⟩
      refine ⟨(Port.Point.outside c.shutdown : P.Point).exchanges ++
        plain.exchanges c.journal.callers.length, ?_,
        .turns (.inl ⟨phase, going⟩) (phase_afterRead ..)⟩
      rw [journal, session_afterRead]
      exact hjournal
  | @reads choice id reply session phase reads =>
      rw [phase] at hreaders
      rcases stepRead_turn agrees.distinct hreaders reads with ⟨read, progress, turn, rfl, -⟩
      rcases Port.recorded_turn turn with ⟨plain, -, rfl, hjournal⟩
      refine ⟨(Port.Point.inside read.value : P.Point).exchanges ++
        plain.exchanges read.number, ?_,
        .turns (.inr ⟨phase, read.value, rfl⟩) (phase_afterRead ..)⟩
      rw [journal, session_afterRead]
      exact hjournal
  | @finishes result session phase endings tasks closes =>
      obtain ⟨rfl, rfl⟩ := Prod.mk.inj closes
      exact ⟨_, rfl, .closes phase tasks endings rfl⟩
  | @reports id due job settlement session task passed reports =>
      rcases Session.report_eq_some reports with ⟨delivery, -, -, hsettle, -⟩
      exact ⟨_, (Port.recorded_settle hsettle).2, .reports (List.ne_nil_of_mem task) rfl⟩

/-! ## What is written down in order -/

/-- The loop reads, or is about to. -/
def Phase.linked : Phase → Prop
  | .ready | .reading _ => True
  | _ => False

namespace Writes

variable {c c' : Consumer P.recorded W} {more : Journal P.Receipt}

/-- Only a loop that is about to connect or to read, and was not told to stop, does so. -/
theorem calls (h : c.Writes c' more) {exchange : Exchange P.Receipt} (mem : exchange ∈ more)
    (calls : exchange.Calls) : c.stopping = false ∧ (c.phase = .connecting ∨ c.phase = .ready) := by
  cases h with
  | nothing => cases mem
  | connects phase going => exact ⟨going, .inl phase⟩
  | closes | reports =>
      obtain rfl := List.mem_singleton.1 mem
      cases calls
  | @turns point plain number id due phase =>
      rcases phase with ⟨phase, going⟩ | ⟨-, read, rfl⟩
      · exact ⟨going, .inr phase⟩
      · cases plain with
        | going read => cases mem
        | ended answer =>
            obtain rfl := List.mem_singleton.1 mem
            cases calls

/-- A loop that is told of the end is past its reads. -/
theorem told (h : c.Writes c' more) {exchange : Exchange P.Receipt} (mem : exchange ∈ more)
    (closed : exchange.SaysClosed) : c'.phase = .joining := by
  cases h with
  | nothing => cases mem
  | connects phase going next =>
      obtain rfl := List.mem_singleton.1 mem
      cases closed
      exact next
  | closes | reports =>
      obtain rfl := List.mem_singleton.1 mem
      cases closed
  | @turns point plain number id due phase next =>
      rcases List.mem_append.1 mem with hbegan | hended
      · cases point with
        | outside caller =>
            obtain rfl := List.mem_singleton.1 hbegan
            cases closed
        | inside read => cases hbegan
      · cases plain with
        | going read => cases hended
        | ended answer =>
            obtain rfl := List.mem_singleton.1 hended
            cases closed
            exact next

/-- A loop that is past its reads stays so. -/
theorem stays_over (h : c.Writes c' more) (before : c.phase.over) : c'.phase.over := by
  cases h with
  | nothing phase =>
      rcases phase with hsame | ⟨hbetween, -⟩
      · rwa [hsame]
      · cases hphase : c.phase <;> simp_all [Phase.over, Phase.between]
  | connects phase => simp [phase, Phase.over] at before
  | turns phase =>
      rcases phase with ⟨hphase, -⟩ | ⟨hphase, -⟩ <;> simp [hphase, Phase.over] at before
  | closes phase tasks endings next => simp [next, Phase.over]
  | reports tasks phase => rwa [phase]

/-- A loop that is past its reads was so before, was told to stop, or is told of the end. -/
theorem over_cases (h : c.Writes c' more) (after : c'.phase.over) :
    c.phase.over ∨ c.stopping = true ∨ ∃ exchange ∈ more, exchange.SaysClosed := by
  cases h with
  | nothing phase =>
      rcases phase with hsame | ⟨-, ⟨hstopping, -⟩ | hphase⟩
      · exact .inl (hsame ▸ after)
      · exact .inr (.inl hstopping)
      · simp [hphase, Phase.over] at after
  | @connects caller result due phase going next =>
      obtain rfl := Phase.eq_closed_of_connected (next ▸ after)
      exact .inr (.inr ⟨_, List.mem_singleton_self _, .connected caller⟩)
  | @turns point plain number id due phase next =>
      obtain rfl := Progress.eq_closed_of_leads (next ▸ after)
      exact .inr (.inr ⟨_, List.mem_append_right _ (List.mem_singleton_self _), .ended number⟩)
  | closes phase => exact .inl (by simp [phase, Phase.over])
  | reports tasks phase => exact .inl (phase ▸ after)

/-- Whoever is told of the end in a move has called before. -/
theorem quiet (h : c.Writes c' more) : more.Quiet := by
  cases h with
  | nothing => exact .nil
  | connects | closes | reports => exact List.pairwise_singleton ..
  | @turns point plain number =>
      have hended : (plain.exchanges number).Quiet := by
        cases plain with
        | going read => exact .nil
        | ended answer => exact List.pairwise_singleton ..
      refine List.pairwise_append.2 ⟨?_, hended, ?_⟩
      · cases point with
        | outside caller => exact List.pairwise_singleton ..
        | inside read => exact .nil
      · intro earlier hearlier later hlater hclosed
        cases point with
        | outside caller =>
            obtain rfl := List.mem_singleton.1 hearlier
            cases hclosed
        | inside read => cases hearlier

/-- The port is closed by a loop that comes to its end with that. -/
theorem opened (h : c.Writes c' more) (open' : c'.phase ≠ .finished) {exchange : Exchange P.Receipt}
    (mem : exchange ∈ more) : ¬exchange.Closes := by
  intro hcloses
  cases hcloses
  cases h with
  | nothing => cases mem
  | connects | reports => simp at mem
  | closes phase tasks endings next => exact open' next
  | @turns point plain =>
      rcases List.mem_append.1 mem with hbegan | hended
      · cases point <;> simp [Port.Point.exchanges] at hbegan
      · cases plain <;> simp [Progress.exchanges] at hended

/-- A loop that reads, or is about to, goes on only while the connection is established. -/
theorem linked (h : c.Writes c' more) (before : c.phase.linked → c.journal.Linked)
    (after : c'.phase.linked) : Journal.Linked (c.journal ++ more) := by
  cases h with
  | nothing phase =>
      rw [List.append_nil]
      rcases phase with hsame | ⟨-, ⟨-, hphase⟩ | hphase⟩
      · exact before (hsame ▸ after)
      · simp [hphase, Phase.linked] at after
      · simp [hphase, Phase.linked] at after
  | @connects caller result due phase going next =>
      rcases result with error | ⟨⟩
      · cases error <;> simp [next, Phase.connected, Phase.linked] at after
      · exact Journal.linked_concat _ (.connected caller)
  | @turns point plain number id due phase next =>
      have hlinked : c.journal.Linked := by
        apply before
        rcases phase with ⟨hphase, -⟩ | ⟨hphase, -⟩ <;> simp [hphase, Phase.linked]
      have hbegun : Journal.Linked (c.journal ++ point.exchanges) := by
        cases point with
        | outside caller => exact hlinked.concat (by rintro ⟨⟩)
        | inside read => simpa [Port.Point.exchanges] using hlinked
      rw [← List.append_assoc]
      cases plain with
      | going read => simpa [Progress.exchanges] using hbegun
      | ended answer =>
          refine hbegun.concat ?_
          rintro ⟨read, reason⟩
          simp [next, Progress.leads, Phase.linked] at after
  | closes phase tasks endings next => simp [next, Phase.linked] at after
  | reports tasks phase => exact (before (phase ▸ after)).concat (by rintro ⟨⟩)

/-- Reads begin only while the connection is established. -/
theorem relinks (h : c.Writes c' more) (linked : c.phase.linked → c.journal.Linked)
    (relinks : c.journal.Relinks) : Journal.Relinks (c.journal ++ more) := by
  cases h with
  | nothing => rwa [List.append_nil]
  | connects | closes | reports => exact relinks.concat (by rintro _ ⟨⟩)
  | @turns point plain number id due phase =>
      have hbegun : Journal.Relinks (c.journal ++ point.exchanges) := by
        cases point with
        | outside caller =>
            refine relinks.concat fun _ _ => linked ?_
            rcases phase with ⟨hphase, -⟩ | ⟨hphase, -⟩ <;> simp [hphase, Phase.linked]
        | inside read => simpa [Port.Point.exchanges] using relinks
      rw [← List.append_assoc]
      cases plain with
      | going read => simpa [Progress.exchanges] using hbegun
      | ended answer => exact hbegun.concat (by rintro _ ⟨⟩)

/-- A loop comes to its end as it closes the port, when all its tasks have ended. -/
theorem finishes (h : c.Writes c' more) (before : c.phase ≠ .finished)
    (after : c'.phase = .finished) :
    c.phase = .joining ∧ c.tasks = [] ∧ ∃ result, more = [.closed c.lastScope result] := by
  cases h with
  | nothing phase =>
      rcases phase with hsame | ⟨-, ⟨-, hphase⟩ | hphase⟩
      · exact absurd (hsame ▸ after) before
      · simp [hphase] at after
      · simp [hphase] at after
  | @connects caller result due phase going next =>
      rcases result with error | ⟨⟩
      · cases error <;> simp [next, Phase.connected] at after
      · simp [next, Phase.connected] at after
  | @turns point plain number id due phase next =>
      rcases plain with read | ⟨batch, receipt⟩ | error | reason
      · simp [next, Progress.leads] at after
      · simp [next, Progress.leads] at after
      · cases error <;> simp [next, Progress.leads] at after
      · simp [next, Progress.leads] at after
  | @closes result phase tasks => exact ⟨phase, tasks, result, rfl⟩
  | reports tasks phase => exact absurd (phase ▸ after) before

/-- After its end a consumer writes nothing more. -/
theorem rests (h : c.Writes c' more) (finished : c.phase = .finished) (tasks : c.tasks = []) :
    more = [] := by
  cases h with
  | nothing => rfl
  | connects phase | closes phase => simp [finished] at phase
  | turns phase => simp [finished] at phase
  | reports tasks' => exact absurd tasks tasks'

end Writes

/-- Everything so far has come in its order. -/
structure Orderly (c : Consumer P.recorded W) : Prop where
  quiet : c.journal.Quiet
  told : ∀ exchange ∈ c.journal, exchange.SaysClosed → c.phase.over
  relinks : c.journal.Relinks
  linked : c.phase.linked → c.journal.Linked
  opened : c.phase ≠ .finished → ∀ exchange ∈ c.journal, ¬exchange.Closes

theorem orderly_recording {W : Processor} (source : P.State) (a : Ambient) (worker : W.State)
    (delay : Duration) : (recording (W := W) source a worker delay).Orderly where
  quiet := .nil
  told _ h := absurd h List.not_mem_nil
  relinks before caller after h := by
    have hnil : ([] : Journal P.Receipt) = before ++ .began caller :: after := h
    simp at hnil
  linked := nofun
  opened _ _ h := absurd h List.not_mem_nil

/-- Whatever happens next, it comes in its order. -/
theorem Orderly.append {c c' : Consumer P.recorded W} {more : Journal P.Receipt} (h : c.Orderly)
    (finished : c.phase = .finished → c'.phase = .finished)
    (journal : c'.journal = c.journal ++ more) (writes : c.Writes c' more) : c'.Orderly where
  quiet := by
    rw [journal]
    refine List.pairwise_append.2 ⟨h.quiet, writes.quiet, ?_⟩
    intro earlier hearlier later hlater hclosed hcalls
    have hover := h.told earlier hearlier hclosed
    rcases (writes.calls hlater hcalls).2 with hphase | hphase <;>
      simp [hphase, Phase.over] at hover
  told exchange hmem hclosed := by
    rw [journal] at hmem
    rcases List.mem_append.1 hmem with hold | hnew
    · exact writes.stays_over (h.told exchange hold hclosed)
    · simp [writes.told hnew hclosed, Phase.over]
  relinks := by
    rw [journal]
    exact writes.relinks h.linked h.relinks
  linked hafter := by
    rw [journal]
    exact writes.linked h.linked hafter
  opened hopen exchange hmem := by
    rw [journal] at hmem
    rcases List.mem_append.1 hmem with hold | hnew
    · exact h.opened (fun hfinished => hopen (finished hfinished)) exchange hold
    · exact writes.opened hopen hnew

/-- A consumer that has come to its end stays there. -/
theorem Move.finished {changes : (P.State → P.State) → Prop} {c c' : Consumer P W}
    (move : Move changes c c') (finished : c.phase = .finished) : c'.phase = .finished := by
  cases move with
  | changes | elapses => exact finished
  | acts deed =>
  cases deed with
  | stops between => simp [finished, Phase.between] at between
  | connects phase | resumes phase | begins phase | reads phase | tallies phase | finishes phase =>
      simp [finished] at phase
  | works | reports => exact finished

/-- Whatever a consumer reaches, everything so far has come in its order. -/
theorem Reaches.orderly (steady : W.Steady) {source : P.State} {a : Ambient} {worker : W.State}
    {delay : Duration} {c : Consumer P.recorded W.recorded}
    (h : Reaches Recorded.Changes (recording source a worker delay) c) : c.Orderly := by
  have hall : c.Agrees ∧ c.Orderly := by
    refine h.induct (motive := fun c => c.Agrees ∧ c.Orderly)
      ⟨(kept_recording source a worker delay).agrees, orderly_recording source a worker delay⟩ ?_
    rintro d d' ⟨hagrees, horderly⟩ hmove
    rcases hmove.writes (fun _ hf => hf) hagrees with ⟨more, hmore, hwrites⟩
    exact ⟨hmove.agrees steady.recorded hagrees, horderly.append hmove.finished hmore hwrites⟩
  exact hall.2

/-! ## After shutdown was requested -/

/-- Once shutdown is requested, nobody connects or begins to read. -/
theorem silent_of_stopping (steady : P.Steady) (processes : W.Steady)
    {c c' : Consumer P.recorded W} (h : Reaches Recorded.Changes c c') (agrees : c.Agrees)
    (stopping : c.stopping = true) :
    ∃ more, c'.journal = c.journal ++ more ∧ ∀ exchange ∈ more, ¬exchange.Calls := by
  have hall : c'.Agrees ∧ c'.stopping = true ∧
      ∃ more, c'.journal = c.journal ++ more ∧ ∀ exchange ∈ more, ¬exchange.Calls := by
    refine h.induct (motive := fun c' => c'.Agrees ∧ c'.stopping = true ∧
      ∃ more, c'.journal = c.journal ++ more ∧ ∀ exchange ∈ more, ¬exchange.Calls)
      ⟨agrees, stopping, [], (List.append_nil _).symm, nofun⟩ ?_
    rintro d d' ⟨hagrees, hstopping, before, hbefore, hsilent⟩ hmove
    rcases hmove.writes (fun _ hf => hf) hagrees with ⟨more, hmore, hwrites⟩
    refine ⟨hmove.agrees processes hagrees,
      hmove.stopping steady.recorded processes hagrees.distinct hstopping, before ++ more, ?_, ?_⟩
    · rw [hmore, hbefore, List.append_assoc]
    · intro exchange hmem hcalls
      rcases List.mem_append.1 hmem with hold | hnew
      · exact hsilent exchange hold hcalls
      · simp [(hwrites.calls hnew hcalls).1] at hstopping
  exact hall.2.2

/-! ## The end -/

/-- A consumer comes to its end.

* It closes the port once, in a scope that nobody has cancelled.
* By then all tasks have ended: every delivery is reported on once, with what came of its
  batch. -/
structure Departs (start c last : Consumer P.recorded W.recorded)
    (result : Except ReadError Unit) : Prop where
  reached : Reaches Recorded.Changes start last
  closes : c.journal = last.journal ++ [.closed last.lastScope result]
  once : ∀ exchange ∈ last.journal, ¬exchange.Closes
  scope : ¬(last.session.scope false).2.ambient.scopes.IsCancelled last.lastScope
  tasks : last.phase = .joining ∧ last.tasks = []
  reported : (last.journal.reports.map Prod.fst).Perm (List.range last.journal.issued.length)
  settled : ∀ number batch receipt, last.journal.issued[number]? = some (batch, receipt) →
    ∃ (k : Nat) (outcome : Option Outcome), last.log[k]? = some (batch, outcome) ∧
      last.journal.reports[k]? = some (number, outcome.getD brokeOff)

/-- Whoever has come to the end has departed. -/
theorem Reaches.departs (steady : W.Steady) {source : P.State} {a : Ambient} {worker : W.State}
    {delay : Duration} {c : Consumer P.recorded W.recorded}
    (h : Reaches Recorded.Changes (recording source a worker delay) c)
    (finished : c.phase = .finished) :
    ∃ last result, Departs (recording source a worker delay) c last result := by
  induction h with
  | start => cases finished
  | @step c c' hreach hstep ih =>
      have hkept := hreach.kept steady fun _ hf => hf
      have horderly := hreach.orderly steady
      rcases hstep.move.writes (fun _ hf => hf) hkept.agrees with ⟨more, hmore, hwrites⟩
      by_cases hfinished : c.phase = .finished
      · rcases ih hfinished with ⟨last, result, hdeparts⟩
        obtain rfl := hwrites.rests hfinished (hkept.agrees.finished hfinished).1
        rw [List.append_nil] at hmore
        exact ⟨last, result, { hdeparts with closes := hmore.trans hdeparts.closes }⟩
      · rcases hwrites.finishes hfinished finished with ⟨hjoining, htasks, result, rfl⟩
        have hreported := hkept.reported (by simp [hjoining]) htasks
        exact ⟨c, result, {
          reached := hreach
          closes := hmore
          once := horderly.opened hfinished
          scope := c.session.not_isCancelled_scope
          tasks := ⟨hjoining, htasks⟩
          reported := hreported
          settled := fun _ _ _ hissued => hkept.settled hreported hissued }⟩

/-- The life of a consumer is in order.

* Once shutdown is requested, it neither connects nor begins to read.
* Nor does it after it was told of the end.
* After a read has lost the connection, it connects before it begins another read.
* It comes to its end as described in `Departs`. -/
structure InOrder (start c : Consumer P.recorded W.recorded) : Prop where
  stops : c.stopping = true → ∀ c', Reaches Recorded.Changes c c' →
    ∃ more, c'.journal = c.journal ++ more ∧ ∀ exchange ∈ more, ¬exchange.Calls
  quiet : c.journal.Quiet
  relinks : c.journal.Relinks
  departs : c.phase = .finished → ∃ last result, Departs start c last result

/-- Whatever a consumer reaches, its life is in order. -/
theorem lives_in_order (steady : P.Steady) (processes : W.Steady) (source : P.State) (a : Ambient)
    (worker : W.State) (delay : Duration) {c : Consumer P.recorded W.recorded}
    (h : Reaches Recorded.Changes (recording source a worker delay) c) :
    InOrder (recording source a worker delay) c where
  stops stopping _ h' :=
    silent_of_stopping steady processes.recorded h' (h.kept processes fun _ hf => hf).agrees
      stopping
  quiet := (h.orderly processes).quiet
  relinks := (h.orderly processes).relinks
  departs finished := h.departs processes finished

/-! ## A run

A read loses its connection.  The next read is in progress when shutdown is requested, and is
given a batch all the same. -/

namespace Tour

/-- Processing that succeeds at once. -/
def ready : Processor where
  State := Unit
  Job := Unit
  start _ _ _ := ((), .zero, ())
  finish _ mint _ := (some .processed, mint, ())

theorem steady_ready : ready.Steady := fun _ _ _ => ⟨Nat.le_refl _, Nat.le_refl _⟩

/-- What the source answers: its batch comes after five milliseconds. -/
def late : Script := .ofItems [] [] #[
  ⟨none, .error (.connection "lost")⟩, ⟨some 5, .batch [[97]] .accept⟩]

/-- A consumer of the source. -/
def starting : Consumer Script.port.recorded ready.recorded :=
  recording (P := Script.port) late (.start .epoch) () .zero

/-- The consumer as its second read waits. -/
def awaiting : Consumer Script.port.recorded ready.recorded :=
  (List.replicate 7 none).foldl (act ⟨false, fun low _ => low⟩) starting

/-- The same consumer after shutdown was requested, as the batch comes. -/
def stopped : Consumer Script.port.recorded ready.recorded :=
  requestShutdown { awaiting with session := awaiting.session.advance 5 }

/-- The consumer at its end. -/
def departed : Consumer Script.port.recorded ready.recorded :=
  [none, none, some 1, some 1, none, none].foldl (act ⟨false, fun low _ => low⟩) stopped

theorem reaches_stopped : Reaches Recorded.Changes starting stopped := by
  have hawaiting : Reaches Recorded.Changes starting awaiting := Reaches.start.acts _ _
  exact (hawaiting.step (.elapse (awaiting.session.ambient.grows_advance 5))).step
    (.requestShutdown _)

end Tour

/-- A batch that a read in progress is given after shutdown was requested is processed and
reported on, and only then is the port closed. -/
theorem lives_in_order_tour :
    Tour.stopped.stopping = true ∧ Tour.stopped.journal.issued.length = 0 ∧
      InOrder Tour.starting Tour.stopped ∧ Tour.departed.phase = .finished ∧
        Tour.departed.report = ⟨1, 1, 0, 0, 1, 0⟩ ∧ InOrder Tour.starting Tour.departed := by
  have hdeparted : Reaches Recorded.Changes Tour.starting Tour.departed :=
    Tour.reaches_stopped.acts _ _
  have hstarting := @lives_in_order Script.port Tour.ready Script.steady_port Tour.steady_ready
    Tour.late (.start .epoch) () .zero
  exact ⟨by decide +kernel, by decide +kernel, hstarting Tour.reaches_stopped, by rfl,
    by decide +kernel, hstarting hdeparted⟩

end Consumer

end Redelivery
