import Redelivery.Layer
import Redelivery.Proofs.Port.Turn

/-!
# What a turn of a layer's read can do

A read through a layer either serves the backlog or asks the port inside, and either
may take several turns.  `Layer.Turn` lists all that one turn can do, with what it found
and what it leaves; what is proved of single turns rests on this list.

Main definitions:

* `Layer.HandsOut`, `Layer.AtOnce`, `Layer.Asks`, `Layer.AtEnd`: parts of a turn.
* `Layer.Turn`: all that a turn can do.

Main results:

* Theorem `Layer.turn_cases`: a turn of the layer as a port is one of these.
* Theorem `Layer.connect_cases`: what connecting a layer can do.
-/

namespace Redelivery
namespace Layer

variable {P : Port}

/-! ## The parts of a turn -/

/-- What is handed out for an entry as its read ends: a single part as it is, and other
batches as tagged copies under a fresh group. -/
inductive HandsOut (scope : Scope) (entry : Entry P.Receipt) (a : Ambient) :
    Batch → Held P.Receipt → Ambient → Prop
  | single (length : entry.batch.length = 1) :
      HandsOut scope entry a entry.batch ⟨entry, none⟩ (a.cancel scope)
  | several (length : entry.batch.length ≠ 1) :
      HandsOut scope entry a
        (Group.tag ⟨a.mint.groups, entry.batch.length⟩ entry.batch)
        ⟨entry, some ⟨a.mint.groups, entry.batch.length⟩⟩
        (Ambient.cancel { a with mint := ⟨a.mint.contents, a.mint.groups + 1⟩ } scope)

/-- The entry is delivered again without a pause, and its backoff is then this one. -/
inductive AtOnce (settings : Settings) (choice : Choice) (entry : Entry P.Receipt) :
    Backoff → Prop
  | early (h : ¬settings.backoffAfter < entry.attempts + 1) :
      AtOnce settings choice entry entry.backoff
  | noDelay {delay : Duration} {backoff : Backoff} (h : settings.backoffAfter < entry.attempts + 1)
      (next : entry.backoff.next choice.pick = .ok (delay, backoff)) (zero : delay.isZero) :
      AtOnce settings choice entry backoff

/-- Before this turn the read asks the port inside, within its scope. -/
inductive Asks (settings : Settings) (layer : Layer P) :
    (port settings P).Point → Scope → P.Point → Prop
  | begins {scope : Scope} (opened : layer.inputClosed = false) :
      Asks settings layer (.inside (.armed scope : Reading P)) scope (.outside scope)
  | goesOn {scope : Scope} {read : P.Read} :
      Asks settings layer (.inside (.asking scope read : Reading P)) scope (.inside read)

/-- In this turn the read finds that the port inside has ended. -/
inductive AtEnd (settings : Settings) (choice : Choice) (a : Ambient) (layer : Layer P) :
    (port settings P).Point → Scope → Ambient → P.State → Prop
  | flagged {scope : Scope} (closed : layer.inputClosed = true) :
      AtEnd settings choice a layer (.inside (.armed scope : Reading P)) scope a layer.inner
  | answered {point : (port settings P).Point} {scope : Scope} {inside : P.Point} {a' : Ambient}
      {inner : P.State} (asks : Asks settings layer point scope inside)
      (turn : P.turn choice inside a layer.inner = some (.ended (.failed .closed), a', inner)) :
      AtEnd settings choice a layer point scope a' inner
  | looked {scope : Scope} {due : Nat} (passed : due ≤ a.now) :
      AtEnd settings choice a layer (.inside (.draining scope due : Reading P)) scope a layer.inner

/-! ## Turns -/

/-- All that a turn of a read through a layer can do. -/
inductive Turn (settings : Settings) (choice : Choice) (a : Ambient) (layer : Layer P) :
    (port settings P).Point → Going P → Ambient → Layer P → Prop
  /-- The backlog is empty, and the read's scope is armed. -/
  | arms {caller : Scope} (empty : layer.backlog.entries = []) :
      Turn settings choice a layer (.outside caller) (.going (.armed (a.childScope caller).1))
        (a.childScope caller).2 { layer with backlog := ⟨[], (a.childScope caller).1⟩ }
  /-- The first entry is delivered again at once. -/
  | redelivers {caller : Scope} {entry : Entry P.Receipt} {rest : List (Entry P.Receipt)}
      {backoff : Backoff} {batch : Batch} {held : Held P.Receipt} {a' : Ambient}
      (head : layer.backlog.entries = entry :: rest)
      (atOnce : AtOnce settings choice entry backoff)
      (hands : HandsOut (a.childScope caller).1
        { entry with attempts := entry.attempts + 1, backoff } (a.childScope caller).2 batch
        held a') :
      Turn settings choice a layer (.outside caller) (.ended (.delivered batch held)) a'
        { layer with backlog := { layer.backlog with entries := rest } }
  /-- The first entry is due for a pause, and its backoff has no answer. -/
  | breaks {caller : Scope} {entry : Entry P.Receipt} {rest : List (Entry P.Receipt)}
      {reason : Duration.OutOfRange} (head : layer.backlog.entries = entry :: rest)
      (late : settings.backoffAfter < entry.attempts + 1)
      (next : entry.backoff.next choice.pick = .error reason) :
      Turn settings choice a layer (.outside caller) (.ended (.died reason.message))
        ((a.childScope caller).2.cancel (a.childScope caller).1)
        { layer with backlog := { layer.backlog with entries := rest } }
  /-- The first entry is taken, and its delay begins. -/
  | paces {caller : Scope} {entry : Entry P.Receipt} {rest : List (Entry P.Receipt)}
      {delay : Duration} {backoff : Backoff} (head : layer.backlog.entries = entry :: rest)
      (late : settings.backoffAfter < entry.attempts + 1)
      (next : entry.backoff.next choice.pick = .ok (delay, backoff))
      (positive : delay.isZero = false) :
      Turn settings choice a layer (.outside caller)
        (.going (.pacing caller (a.childScope caller).1 { entry with backoff }
          (a.now + delay.clockMillis)))
        (a.childScope caller).2 { layer with backlog := { layer.backlog with entries := rest } }
  /-- The delay is over, and the entry is delivered again. -/
  | resumes {caller scope : Scope} {entry : Entry P.Receipt} {due : Nat} {batch : Batch}
      {held : Held P.Receipt} {a' : Ambient} (passed : due ≤ a.now)
      (hands : HandsOut scope { entry with attempts := entry.attempts + 1 } a batch held a') :
      Turn settings choice a layer (.inside (.pacing caller scope entry due : Reading P))
        (.ended (.delivered batch held)) a' layer
  /-- The caller cancels during the delay, and the entry is put back. -/
  | putsBack {caller scope : Scope} {entry : Entry P.Receipt} {due : Nat}
      (cancelled : a.scopes.IsCancelled caller) :
      Turn settings choice a layer (.inside (.pacing caller scope entry due : Reading P))
        (.ended (.failed .cancelled)) (a.cancel scope)
        { layer with backlog := layer.backlog.putBack entry }
  /-- The port inside has not answered. -/
  | asks {point : (port settings P).Point} {scope : Scope} {inside : P.Point} {read : P.Read}
      {a' : Ambient} {inner : P.State} (asks : Asks settings layer point scope inside)
      (turn : P.turn choice inside a layer.inner = some (.going read, a', inner)) :
      Turn settings choice a layer point (.going (.asking scope read)) a' { layer with inner }
  /-- The port inside hands out a batch, which is counted and handed out. -/
  | receives {point : (port settings P).Point} {scope : Scope} {inside : P.Point}
      {batch batch' : Batch} {receipt : P.Receipt} {held : Held P.Receipt} {a' a'' : Ambient}
      {inner : P.State} (asks : Asks settings layer point scope inside)
      (turn : P.turn choice inside a layer.inner =
        some (.ended (.delivered batch receipt), a', inner))
      (hands : HandsOut scope (.fresh batch receipt settings.backoff) a' batch' held a'') :
      Turn settings choice a layer point (.ended (.delivered batch' held)) a''
        { layer with inner, pending := layer.pending + 1 }
  /-- The port inside fails, and has not ended. -/
  | fails {point : (port settings P).Point} {scope : Scope} {inside : P.Point} {error : ReadError}
      {a' : Ambient} {inner : P.State} (asks : Asks settings layer point scope inside)
      (turn : P.turn choice inside a layer.inner = some (.ended (.failed error), a', inner))
      (opened : error ≠ .closed) :
      Turn settings choice a layer point (.ended (.failed error)) (a'.cancel scope)
        { layer with inner }
  /-- The read of the port inside breaks off. -/
  | dies {point : (port settings P).Point} {scope : Scope} {inside : P.Point} {reason : String}
      {a' : Ambient} {inner : P.State} (asks : Asks settings layer point scope inside)
      (turn : P.turn choice inside a layer.inner = some (.ended (.died reason), a', inner)) :
      Turn settings choice a layer point (.ended (.died reason)) (a'.cancel scope)
        { layer with inner }
  /-- The port inside has ended and nothing is pending: so has the layer. -/
  | ends {point : (port settings P).Point} {scope : Scope} {a' : Ambient} {inner : P.State}
      (atEnd : AtEnd settings choice a layer point scope a' inner) (drained : layer.pending ≤ 0) :
      Turn settings choice a layer point (.ended (.failed .closed)) (a'.cancel scope)
        { layer with inner }
  /-- The port inside has ended and batches are pending: the end is held back. -/
  | holds {point : (port settings P).Point} {scope : Scope} {a' : Ambient} {inner : P.State}
      (atEnd : AtEnd settings choice a layer point scope a' inner) (pending : 0 < layer.pending) :
      Turn settings choice a layer point
        (.going (.draining scope (a'.now + settings.drainPoll.clockMillis))) a'
        { layer with inner, inputClosed := true }
  /-- The read's scope is cancelled while the end is held back. -/
  | interrupted {scope : Scope} {due : Nat} (cancelled : a.scopes.IsCancelled scope) :
      Turn settings choice a layer (.inside (.draining scope due : Reading P))
        (.ended (.failed .timeout)) (a.cancel scope) layer

/-! ## Every turn is one of these -/

variable {settings : Settings} {choice : Choice}

theorem deliver_handsOut (scope : Scope) (entry : Entry P.Receipt) (a : Ambient)
    (layer : Layer P) :
    ∃ batch held a', deliver scope entry a layer = (.ended (.delivered batch held), a', layer) ∧
      HandsOut scope entry a batch held a' := by
  by_cases hlength : entry.batch.length = 1
  · exact ⟨_, _, _, by simp [deliver, finish, hlength], .single hlength⟩
  · exact ⟨_, _, _, by simp [deliver, finish, hlength, Mint.track], .several hlength⟩

/-- A wait that ended by cancellation was cancelled, and any other is over in time. -/
theorem waited_eq_some {cancelled due early : Bool}
    (h : choice.waited cancelled due = some early) :
    (early = true → cancelled = true) ∧ (early = false → due = true) := by
  unfold Choice.waited at h
  split at h
  case isTrue hcancelled =>
    obtain rfl := Option.some.inj h
    rw [Bool.and_eq_true] at hcancelled
    exact ⟨fun _ => hcancelled.1, nofun⟩
  case isFalse =>
    split at h
    case isTrue hdue =>
      obtain rfl := Option.some.inj h
      exact ⟨nofun, fun _ => hdue⟩
    case isFalse => cases h

theorem turn_redeliver {caller : Scope} {entry : Entry P.Receipt} {rest : List (Entry P.Receipt)}
    {a : Ambient} {layer : Layer P} (head : layer.backlog.entries = entry :: rest)
    {progress : Going P} {a' : Ambient} {layer' : Layer P}
    (h : redeliver settings choice caller (a.childScope caller).1 entry (a.childScope caller).2
      { layer with backlog := { layer.backlog with entries := rest } } = (progress, a', layer')) :
    Turn settings choice a layer (.outside caller) progress a' layer' := by
  simp only [redeliver] at h
  split at h
  case isFalse hearly =>
    obtain ⟨batch, held, b, heq, hands⟩ := deliver_handsOut (a.childScope caller).1
      { entry with attempts := entry.attempts + 1 } (a.childScope caller).2
      { layer with backlog := { layer.backlog with entries := rest } }
    obtain ⟨rfl, rfl, rfl⟩ : _ = progress ∧ _ = a' ∧ _ = layer' := by simpa [heq] using h
    exact .redelivers head (.early hearly) hands
  case isTrue hlate =>
    split at h
    case h_1 reason hnext =>
      simp only [finish, Prod.mk.injEq] at h
      rcases h with ⟨rfl, rfl, rfl⟩
      exact .breaks head hlate hnext
    case h_2 delay backoff hnext =>
      split at h
      case isTrue hzero =>
        obtain ⟨batch, held, b, heq, hands⟩ := deliver_handsOut (a.childScope caller).1
          { entry with attempts := entry.attempts + 1, backoff } (a.childScope caller).2
          { layer with backlog := { layer.backlog with entries := rest } }
        obtain ⟨rfl, rfl, rfl⟩ : _ = progress ∧ _ = a' ∧ _ = layer' := by simpa [heq] using h
        exact .redelivers head (.noDelay hlate hnext hzero) hands
      case isFalse hpositive =>
        simp only [Prod.mk.injEq] at h
        rcases h with ⟨rfl, rfl, rfl⟩
        exact .paces head hlate hnext (by simpa using hpositive)

theorem turn_drain {point : (port settings P).Point} {scope : Scope} {a a' b : Ambient}
    {layer layer' : Layer P} {inner : P.State} {progress : Going P}
    (atEnd : AtEnd settings choice a layer point scope a' inner)
    (h : drain settings scope a' { layer with inner } = (progress, b, layer')) :
    Turn settings choice a layer point progress b layer' := by
  simp only [drain] at h
  split at h
  case isTrue hdrained =>
    simp only [finish, Prod.mk.injEq] at h
    rcases h with ⟨rfl, rfl, rfl⟩
    exact .ends atEnd hdrained
  case isFalse hpending =>
    simp only [Prod.mk.injEq] at h
    rcases h with ⟨rfl, rfl, rfl⟩
    exact .holds atEnd (by simpa using hpending)

theorem turn_asked {point : (port settings P).Point} {scope : Scope} {inside : P.Point}
    {result : Progress P.Read P.Receipt × Ambient × P.State} {a b : Ambient}
    {layer layer' : Layer P} {progress : Going P} (asks : Asks settings layer point scope inside)
    (turn : P.turn choice inside a layer.inner = some result)
    (h : asked settings scope result layer = (progress, b, layer')) :
    Turn settings choice a layer point progress b layer' := by
  rcases result with ⟨found, a', inner⟩
  cases found with
  | going read =>
      simp only [asked, Prod.mk.injEq] at h
      rcases h with ⟨rfl, rfl, rfl⟩
      exact .asks asks turn
  | ended answer =>
      cases answer with
      | delivered batch receipt =>
          rcases deliver_handsOut scope
            (.fresh batch receipt settings.backoff) a'
            { layer with inner, pending := layer.pending + 1 } with ⟨batch', held, a'', heq, hands⟩
          obtain ⟨rfl, rfl, rfl⟩ : _ = progress ∧ _ = b ∧ _ = layer' := by
            simpa [asked, answered, heq] using h
          exact .receives asks turn hands
      | failed error =>
          by_cases hclosed : error = .closed
          · subst hclosed
            exact turn_drain (.answered asks turn) (by simpa [asked, answered] using h)
          · have hpassed : asked settings scope (.ended (.failed error), a', inner) layer =
                finish scope (.failed error) a' { layer with inner } := by
              cases error with
              | closed => exact absurd rfl hclosed
              | connection | timeout | cancelled => rfl
            rw [hpassed] at h
            simp only [finish, Prod.mk.injEq] at h
            rcases h with ⟨rfl, rfl, rfl⟩
            exact .fails asks turn hclosed
      | died reason =>
          simp only [asked, answered, finish, Prod.mk.injEq] at h
          rcases h with ⟨rfl, rfl, rfl⟩
          exact .dies asks turn

theorem turn_start {caller : Scope} {a a' : Ambient} {layer layer' : Layer P}
    {progress : Going P} (h : start settings choice caller a layer = (progress, a', layer')) :
    Turn settings choice a layer (.outside caller) progress a' layer' := by
  simp only [start, Backlog.takeOrArm] at h
  cases hentries : layer.backlog.entries with
  | nil =>
      simp only [hentries, Prod.mk.injEq] at h
      rcases h with ⟨rfl, rfl, rfl⟩
      exact .arms hentries
  | cons entry rest =>
      simp only [hentries] at h
      exact turn_redeliver hentries h

theorem turn_step {read : Reading P} {a a' : Ambient} {layer layer' : Layer P}
    {progress : Going P} (h : step settings choice read a layer = some (progress, a', layer')) :
    Turn settings choice a layer (.inside read) progress a' layer' := by
  cases read with
  | armed scope =>
      simp only [step] at h
      split at h
      case isTrue hclosed => exact turn_drain (.flagged hclosed) (Option.some.inj h)
      case isFalse hopened =>
        exact turn_asked (.begins (by simpa using hopened)) rfl (Option.some.inj h)
  | asking scope read =>
      rcases Option.map_eq_some_iff.1 h with ⟨result, hresult, h⟩
      exact turn_asked .goesOn hresult h
  | pacing caller scope entry due =>
      rcases Option.map_eq_some_iff.1 h with ⟨cancelled, hwaited, h⟩
      have hwhy := waited_eq_some hwaited
      cases cancelled with
      | true =>
          simp only [finish, if_true, Prod.mk.injEq] at h
          rcases h with ⟨rfl, rfl, rfl⟩
          exact .putsBack (by simpa using hwhy.1 rfl)
      | false =>
          rcases deliver_handsOut scope
            { entry with attempts := entry.attempts + 1 } a layer with ⟨batch, held, b, heq, hands⟩
          obtain ⟨rfl, rfl, rfl⟩ : _ = progress ∧ _ = a' ∧ _ = layer' := by simpa [heq] using h
          exact .resumes (by simpa using hwhy.2 rfl) hands
  | draining scope due =>
      rcases Option.map_eq_some_iff.1 h with ⟨cancelled, hwaited, h⟩
      have hwhy := waited_eq_some hwaited
      cases cancelled with
      | true =>
          simp only [finish, if_true, Prod.mk.injEq] at h
          rcases h with ⟨rfl, rfl, rfl⟩
          exact .interrupted (by simpa using hwhy.1 rfl)
      | false => exact turn_drain (.looked (by simpa using hwhy.2 rfl)) h

/-- A turn of a read of the layer as a port is one of those listed. -/
theorem turn_cases {point : (port settings P).Point} {a a' : Ambient} {layer layer' : Layer P}
    {progress : Going P}
    (h : (port settings P).turn choice point a layer = some (progress, a', layer')) :
    Turn settings choice a layer point progress a' layer' := by
  cases point with
  | outside caller => exact turn_start (Option.some.inj h)
  | inside read => exact turn_step h

/-- All that connecting a layer can do: the end of the port inside is held back if batches
are pending, and any other answer is passed on. -/
theorem connect_cases (caller : Scope) (a : Ambient) (layer : Layer P) :
    ∃ result a' inner, P.connect caller a layer.inner = (result, a', inner) ∧
      (result = .error .closed ∧ 0 < layer.pending ∧ connect caller a layer =
          (.ok (), a', { layer with inner, inputClosed := true }) ∨
        (result = .error .closed → layer.pending ≤ 0) ∧
          connect caller a layer = (result, a', { layer with inner })) := by
  rcases hconnect : P.connect caller a layer.inner with ⟨result, a', inner⟩
  refine ⟨result, a', inner, rfl, ?_⟩
  by_cases hclosed : result = .error .closed
  · by_cases hpending : 0 < layer.pending
    · exact .inl ⟨hclosed, hpending, by simp [connect, hconnect, hclosed, hpending]⟩
    · exact .inr ⟨fun _ => Int.not_lt.1 hpending, by simp [connect, hconnect, hclosed, hpending]⟩
  · refine .inr ⟨fun h => absurd h hclosed, ?_⟩
    simp only [connect, hconnect]

end Layer
end Redelivery
