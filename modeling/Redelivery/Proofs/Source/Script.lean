import Redelivery.Proofs.Port.Turn
import Redelivery.Source.Script

/-!
# What a source that follows a script promises

A source that follows a script makes parts as it finds batches.  Apart from that it touches
neither the clock nor the scopes.  A report on an item is answered as the script says.

Main definitions:

* `Script.answer`: what comes back for an item.

Main results:

* Theorem `Script.steady_port`: nothing is taken back.
* Theorem `Script.answers_port`: an answer depends on its item alone.
-/

namespace Redelivery

namespace Script

/-- What is found adds at most parts to what is shared. -/
theorem grows_found (place : Nat) (find : Find) (a : Ambient) (s : Script) :
    a.Grows (found place find a s).2.1 := by
  cases find with
  | batch contents response => exact a.grows_batch contents
  | error error => exact .refl a
  | die => exact .refl a

/-- A step of a read adds at most parts to what is shared. -/
theorem grows_step {choice : Choice} {read : Reading} {a a' : Ambient} {s s' : Script}
    {going : Going} (h : step choice read a s = some (going, a', s')) : a.Grows a' := by
  cases read with
  | turning scope =>
      simp only [step] at h
      split at h
      · rcases Option.some.inj h with ⟨-, rfl, -⟩
        exact .refl a
      next item _ =>
        split at h
        · rcases Option.some.inj h with ⟨-, rfl, -⟩
          exact .refl a
        · have hgrows := grows_found s.used item.find a s
          rwa [Option.some.inj h] at hgrows
  | delayed scope place find due =>
      rcases Option.map_eq_some_iff.1 h with ⟨cancelled, -, heq⟩
      cases cancelled with
      | true =>
          rcases heq with ⟨-, rfl, -⟩
          exact .refl a
      | false =>
          have hgrows := grows_found place find a s
          rwa [show found place find a s = _ from heq] at hgrows
  | stalled scope =>
      simp only [step] at h
      split at h
      · rcases Option.some.inj h with ⟨-, rfl, -⟩
        exact .refl a
      · cases h

/-- A source that follows a script takes nothing back. -/
theorem steady_port : port.Steady where
  turn {choice point a s progress a' s'} h := by
    cases point with
    | outside caller =>
        rcases Option.some.inj h with ⟨-, rfl, -⟩
        exact .refl a
    | inside read => exact grows_step h
  connect caller a s := .refl a
  close caller a s := .refl a
  settle item outcome a s := .refl a

/-- What comes back for an item. -/
def answer (items : Array Item) (item : Nat) : Settlement :=
  match (items[item]?).map Item.find with
  | some (.batch _ (.reject reason)) => .rejected (.rejected reason)
  | some (.batch _ .die) => .died
  | _ => .accepted

/-- A source with a script answers as the script says, in whatever order. -/
theorem answers_port (items : Array Item) :
    port.Answers (fun s => s.items = items) (answer items) where
  settlement := by
    rintro item a s rfl
    rfl
  keeps item a s h := h

end Script

end Redelivery
