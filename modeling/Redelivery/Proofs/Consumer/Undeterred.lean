import Redelivery.Proofs.Consumer.Lifecycle
import Redelivery.Proofs.Consumer.Settled
import Redelivery.Proofs.Layer.Aloof

/-!
# A consumer that nobody stops

A consumer of a layer around a port that touches nothing shared goes on as long as nobody else
requests its shutdown: neither the layer nor its own reads do.  So it stops reading only when it
is told of the end.

Main definitions:

* `Consumer.Undeterred`: shutdown was not requested, and neither loop nor tasks would.
* `Consumer.outside`: the consumer after something has happened around it.

Main results:

* Theorem `Consumer.Deed.undeterred`, `Consumer.Undeterred.outside`: neither what the loop or a
  task does nor what happens around it requests shutdown.
-/

namespace Redelivery

namespace Consumer

variable {settings : Settings} {P : Port} {W : Processor}

/-- Whatever the loop or a task does, it leaves alone a scope that is neither the layer's nor a
read's. -/
theorem Deed.spares (aloof : P.Aloof) {c c' : Consumer (Layer.watched settings P) W}
    (deed : Deed c c') (agrees : c.Agrees) {id : Nat} (h : Watch.Apart c.session id) :
    Watch.Apart c'.session id ∧
      c'.session.ambient.scopes.flag id = c.session.ambient.scopes.flag id := by
  have hreaders := agrees.readers
  cases deed with
  | stops | resumes | tallies | works => exact ⟨h, rfl⟩
  | @connects result session phase going connects =>
      rcases Port.recorded_connect (Session.connect_eq connects) with ⟨hconnects, -⟩
      have hambient := Layer.connect_ambient aloof.recorded hconnects
      have hinterrupt := congrArg Backlog.interrupt (Layer.connect_backlog hconnects)
      have hsame : session.readers = c.session.readers := by
        obtain rfl : _ = session := congrArg Prod.snd connects
        rfl
      rw [session_afterConnect]
      refine ⟨h.still ?_ hinterrupt hsame, ?_⟩ <;> rw [hambient]
      exact .refl _
  | @begins choice reply session phase going reads =>
      rw [phase] at hreaders
      rcases startRead_turn (List.map_eq_nil_iff.1 hreaders) reads with
        ⟨progress, turn, rfl, hafter, -⟩
      rw [session_afterRead]
      exact h.turn aloof turn (by rintro _ ⟨⟩) hafter
  | @reads choice id reply session phase reads =>
      rw [phase] at hreaders
      rcases List.map_eq_singleton_iff.1 hreaders with ⟨⟨own, read⟩, hone, rfl⟩
      rcases Session.stepRead_of_only agrees.distinct hone reads with
        ⟨progress, a, state, turn, rfl, rfl⟩
      rw [session_afterRead]
      have hturn : (Layer.watched settings P).turn choice (.inside read) c.session.ambient
          c.session.state = some (progress, a, state) := turn
      refine h.turn aloof hturn ?_ rfl
      rintro _ ⟨⟩
      rw [hone]
      exact List.mem_singleton_self _
  | @finishes result session phase endings tasks closes =>
      have hadds := adds_scope c.session
      have hambient : session.ambient = (c.session.scope false).2.ambient := by
        obtain rfl : _ = session := congrArg Prod.snd closes
        exact aloof.recorded.close _ _ _
      have hsame : (Watch.layer session).backlog = (Watch.layer c.session).backlog ∧
          session.readers = c.session.readers := by
        obtain rfl : _ = session := congrArg Prod.snd closes
        exact ⟨rfl, rfl⟩
      refine ⟨h.still ?_ (congrArg Backlog.interrupt hsame.1) hsame.2, ?_⟩ <;> rw [hambient]
      · exact hadds.grows.scopes
      · exact hadds.flag id
  | @reports number due job settlement session task passed reports =>
      rcases Session.report_eq_some reports with ⟨delivery, -, -, hsettle, hsame, -⟩
      rcases Port.recorded_settle hsettle with ⟨hsettles, -⟩
      have hgrows := Layer.settle_grows aloof.recorded.steady hsettles
      exact ⟨h.still hgrows.scopes (Layer.settle_interrupt hsettles) hsame,
        Layer.settle_spares aloof.recorded hsettles h.interrupt⟩

/-- Shutdown was not requested, and the layer does not request it.  Only if it was told of the
end, the consumer reads no more. -/
structure Undeterred (c : Consumer (Layer.watched settings P) W) : Prop where
  going : c.stopping = false
  apart : ∀ id ∈ c.shutdown.id :: c.shutdown.around, Watch.Apart c.session id
  told : c.phase.over → c.ToldClosed

theorem undeterred_watching (source : P.State) (a : Ambient) (worker : W.State)
    (delay : Duration) : (watching settings source a worker delay).Undeterred where
  going := decide_eq_false (Watch.start settings source a).not_isCancelled_scope
  apart id hid := by
    rcases (drives_watching (W := W) source a worker delay).own id hid with ⟨hlt, hne⟩
    exact ⟨hlt, Ne.symm hne, fun reader hreader => absurd hreader List.not_mem_nil⟩
  told h := by cases h

/-- As long as nobody else requests shutdown, a consumer is undeterred. -/
theorem Deed.undeterred (aloof : P.Aloof) {c c' : Consumer (Layer.watched settings P) W}
    (deed : Deed c c') (agrees : c.Agrees) (h : c.Undeterred) : c'.Undeterred := by
  have hmove : Move Recorded.Changes c c' := .acts deed
  have hshutdown := hmove.shutdown_eq
  refine ⟨?_, ?_, ?_⟩
  · have hgoing : ¬c.session.ambient.scopes.IsCancelled c.shutdown := by
      simpa [stopping] using h.going
    have hgoing' : ¬c'.session.ambient.scopes.IsCancelled c.shutdown := by
      rintro (hown | ⟨id, hid, hflag⟩)
      · have hsame := (deed.spares aloof agrees (h.apart _ List.mem_cons_self)).2
        exact hgoing (.inl (hsame.symm.trans hown))
      · have hsame := (deed.spares aloof agrees (h.apart id (List.mem_cons_of_mem _ hid))).2
        exact hgoing (.inr ⟨id, hid, hsame.symm.trans hflag⟩)
    simpa [stopping, hshutdown] using hgoing'
  · rw [hshutdown]
    exact fun id hid => (deed.spares aloof agrees (h.apart id hid)).1
  · intro hover
    rcases hmove.writes (fun _ hf => hf) agrees with ⟨more, hmore, hwrites⟩
    rcases hwrites.over_cases hover with hbefore | hstopping | ⟨exchange, hmem, hsays⟩
    · rcases h.told hbefore with ⟨exchange, hmem, hsays⟩
      have hmem' : exchange ∈ c'.journal := hmore.symm ▸ List.mem_append_left _ hmem
      exact ⟨exchange, hmem', hsays⟩
    · simp [h.going] at hstopping
    · have hmem' : exchange ∈ c'.journal := hmore.symm ▸ List.mem_append_right _ hmem
      exact ⟨exchange, hmem', hsays⟩

/-! ## What happens around it -/

/-- The consumer after time has passed or parts were made, and the source has changed. -/
def outside (c : Consumer (Layer.watched settings P) W) (a : Ambient) (g : P.State → P.State) :
    Consumer (Layer.watched settings P) W :=
  { c with session := Session.change { c.session with ambient := a } (Watch.changeSource g) }

theorem Reaches.outside {start c : Consumer (Layer.watched settings P) W}
    (h : Reaches Watch.ChangesSource start c) {a : Ambient} (grows : c.session.ambient.Grows a)
    (g : P.State → P.State) : Reaches Watch.ChangesSource start (c.outside a g) :=
  (h.step (.elapse grows)).step (.change ⟨g, rfl⟩)

/-- As long as no scope is cancelled, a consumer stays undeterred. -/
theorem Undeterred.outside {c : Consumer (Layer.watched settings P) W} (h : c.Undeterred)
    (a : Ambient) (scopes : a.scopes = c.session.ambient.scopes) (g : P.State → P.State) :
    (c.outside a g).Undeterred where
  going := by
    have hgoing := h.going
    rwa [stopping, ← scopes] at hgoing
  apart id hid := by
    have hapart := h.apart id hid
    have hsize : id < a.scopes.flags.size := by
      rw [scopes]
      exact hapart.exists'
    exact ⟨hsize, hapart.interrupt, hapart.own⟩
  told := h.told

end Consumer

end Redelivery
