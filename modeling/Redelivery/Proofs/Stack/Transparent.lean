import Redelivery.Proofs.Source.Semblance
import Redelivery.Proofs.Stack.Client
import Redelivery.Proofs.Stack.Sessions

/-!
# Stacks are transparent

A stack of layers with the same settings is as good as one of them: a client that reads from a
stack, one batch at a time, cannot tell how many layers it has, and the source cannot tell either.
All layers of the stack agree on what is pending, and only the outermost one ever has anything to
deliver again.

Main definitions:

* `Client.Alike`: a client of a stack and one of a single layer are alike.

Main results:

* Theorems `Client.Alike.does`, `Client.Alike.turn`, `Client.Alike.behind`: clients that are alike
  stay so.
* Theorem `Client.transparent`: a stack of layers cannot be told from one of them, and all its
  layers agree at all times.
* Theorem `Client.transparent_script`: so it is around a source that follows a script.
-/

namespace Redelivery

/-! ## Parts that are alike -/

/-- What is found for the same places is related if it is so at each place. -/
theorem forall₂_filterMap {α β γ : Type} {r : β → γ → Prop} {f : α → Option β} {g : α → Option γ}
    (h : ∀ z, Option.Rel r (f z) (g z)) (zs : List α) :
    List.Forall₂ r (zs.filterMap f) (zs.filterMap g) := by
  induction zs with
  | nil => exact .nil
  | cons z zs ih =>
      have hz := h z
      rw [List.filterMap_cons, List.filterMap_cons]
      generalize f z = x at hz
      generalize g z = y at hz
      cases hz with
      | none => exact ih
      | some hxy => exact .cons hxy ih

namespace Batch.Like

variable {groups : List Bool} {x y : Batch}

theorem pick (h : Batch.Like groups x y) (places : List Nat) :
    Batch.Like groups (x.pick places) (y.pick places) :=
  forall₂_filterMap h.getElem? places

/-- The same is reported in terms of parts that are alike. -/
theorem outcome (h : Batch.Like groups x y) (appraisal : Appraisal) :
    (appraisal.outcome x).Like groups (appraisal.outcome y) := by
  cases appraisal with
  | processed => exact .processed
  | whole reason => exact .failed (.whole reason)
  | parts cause errors =>
      refine .failed (.parts (forall₂_filterMap (fun error => ?_) errors))
      exact rel_map (h.getElem? error.1) fun p q like => ⟨like, rfl⟩

end Batch.Like

/-- What was given with replies that are alike is alike. -/
theorem Reply.Like.parts {groups : List Bool} {reply reply' : Option Reply}
    (h : Option.Rel (Reply.Like groups) reply reply') :
    Batch.Like groups ((reply.map Reply.parts).getD []) ((reply'.map Reply.parts).getD []) := by
  cases h with
  | none => exact .nil
  | some h =>
      cases h with
      | delivered batch => exact batch
      | failed | died => exact .nil

/-- Replies that are alike tell the same. -/
theorem Reply.Like.word_eq {groups : List Bool} {reply reply' : Option Reply}
    (h : Option.Rel (Reply.Like groups) reply reply') : Word.of reply = Word.of reply' := by
  cases h with
  | none => rfl
  | some h =>
      cases h with
      | delivered batch =>
          exact congrArg (fun contents => Word.told (.delivered contents)) batch.contents_eq
      | failed | died => rfl

namespace Client

open Ambient

variable {P : Port} {σ : Semblance P} {settings : Settings} {height : Nat} {w w' : Bond}
  {m m' : Nat}
  {c : Client P settings (List.replicate height settings)} {d : Client P settings []}

/-! ## Clients that are alike -/

/-- The clients are alike, but the read of the first one is so many turns behind. -/
structure Alike (σ : Semblance P) (w : Bond) (m : Nat)
    (c : Client P settings (List.replicate height settings)) (d : Client P settings []) : Prop where
  session : (Stack.lining σ.recorded settings height).Along w m c.session d.session
  scopes : List.Forall₂ (fun x y => (x, y) ∈ w.scopes) c.scopes d.scopes
  parts : Batch.Like w.groups c.parts d.parts

namespace Alike

/-- What the clients have is still alike. -/
theorem withSession (h : Alike σ w m c d) (grows : w.Grows w')
    {s : Session (Layer.port settings (Stack.port P.recorded (List.replicate height settings)))}
    {t : Session (Layer.port settings P.recorded)}
    (along : (Stack.lining σ.recorded settings height).Along w' m' s t) :
    Alike σ w' m' { c with session := s } { d with session := t } where
  session := along
  scopes := h.scopes.imp fun _ _ known => grows.likeness.scopes known
  parts := by
    rcases grows.likeness.groups with ⟨more, heq⟩
    rw [← heq]
    exact h.parts.append more

/-- Both clients do alike what others can do. -/
theorem jointly (h : Alike σ w m c d) (sound : σ.Sound) {l : Likeness} {a b : Ambient}
    (moves : Jointly w.toLikeness c.session.ambient d.session.ambient l a b) :
    ∃ w' : Bond, w'.toLikeness = l ∧ Alike σ w' m (c.withAmbient a) (d.withAmbient b) := by
  rcases (Stack.sound_lining sound.recorded settings height).along_jointly h.session moves with
    ⟨w', hl, hgrows, halong⟩
  exact ⟨w', hl, h.withSession hgrows halong⟩

/-- Both clients have been given, or have made, more parts. -/
theorem addParts (h : Alike σ w m c d) {x y : Batch} (like : Batch.Like w.groups x y) :
    Alike σ w m { c with parts := c.parts ++ x } { d with parts := d.parts ++ y } :=
  { h with parts := List.rel_append h.parts like }

/-- Both clients have opened another scope. -/
theorem addScope (h : Alike σ w m c d) {x y : Scope} (known : (x, y) ∈ w.scopes) :
    Alike σ w m { c with scopes := c.scopes ++ [x] } { d with scopes := d.scopes ++ [y] } :=
  { h with scopes := List.rel_append h.scopes (.cons known .nil) }

/-- The clients are alike, whatever is known. -/
def Somehow (σ : Semblance P) (m : Nat)
    (c : Client P settings (List.replicate height settings)) (d : Client P settings []) : Prop :=
  ∃ w, Alike σ w m c d

/-- Clients that take what a read has come to stay alike. -/
theorem take (h : Alike σ w m c d)
    {f : Option Reply × Session (Layer.port settings
      (Stack.port P.recorded (List.replicate height settings)))}
    {g : Option Reply × Session (Layer.port settings P.recorded)}
    (told : (Stack.lining σ.recorded settings height).Told w f g) :
    Together (Somehow σ) (c.take f.1 f.2) (d.take g.1 g.2) := by
  rcases told with ⟨w', m', hgrows, halong, hreply⟩
  exact ⟨Reply.Like.word_eq hreply, m', w',
    (h.withSession hgrows halong).addParts (Reply.Like.parts hreply)⟩

/-- Whatever the clients do in one of their scopes, they do alike. -/
theorem inScope (h : Alike σ w m c d) (place : Nat)
    {f : Scope → Word × Client P settings (List.replicate height settings)}
    {g : Scope → Word × Client P settings []}
    (does : ∀ x y, (x, y) ∈ w.scopes → Together (Somehow σ) (f x) (g y)) :
    Option.Rel (Together (Somehow σ)) (c.scopes[place]?.map f) (d.scopes[place]?.map g) :=
  rel_map (forall₂_getElem? h.scopes place) does

/-! ### What clients do -/

/-- Clients that are alike can begin to read at the same time, and do so alike. -/
theorem reads (h : Alike σ w m c d) (sound : σ.Sound) (choice : Choice) (place : Nat) :
    Option.Rel (Together (Somehow σ)) (c.does (.reads choice place))
      (d.does (.reads choice place)) := by
  have hsound := Stack.sound_lining sound.recorded settings height
  have hreaders := h.session.readers
  unfold Client.does
  cases hleft : c.session.readers with
  | nil =>
      rw [hleft] at hreaders
      rw [hreaders.eq_nil]
      exact h.inScope place fun x y known =>
        h.take (hsound.along_startRead h.session hleft known choice)
  | cons reader rest =>
      rw [hleft] at hreaders
      generalize d.session.readers = readers at hreaders
      cases hreaders with
      | busy => exact .none

/-- A change of the source that does not look at numbers leaves the clients alike. -/
theorem changes (h : Alike σ w m c d) (sound : σ.Sound) {change : Batch → P.State → P.State}
    (fair : σ.Fair change) (places : List Nat) :
    Alike σ w m (c.changed change places) (d.changed change places) := by
  have hlike : ∀ s t : Recorded P, σ.recorded.State w.toLikeness s t →
      σ.recorded.State w.toLikeness ⟨s.journal, change (c.parts.pick places) s.state⟩
        ⟨t.journal, change (d.parts.pick places) t.state⟩ := fun s t like =>
    ⟨fair _ _ _ _ _ (h.parts.pick places) like.1, like.2⟩
  have hcore := (Stack.sound_lining sound.recorded settings height).update hlike
    h.session.beside.core
  rw [Stack.update_lining] at hcore
  have hbeside := h.session.beside
  exact h.withSession (.refl w) { h.session with
    beside := ⟨hcore, hbeside.pending_eq, hbeside.entries, hbeside.interrupt⟩ }

/-- Whatever the clients do, they do alike. -/
theorem does (h : Alike σ w m c d) (sound : σ.Sound) (deed : Deed P) (fair : deed.Fair σ) :
    Option.Rel (Together (Somehow σ)) (c.does deed) (d.does deed) := by
  have hsound := Stack.sound_lining sound.recorded settings height
  cases deed with
  | opens =>
      rcases h.jointly sound (.opensFresh _ _ _) with ⟨w', hl, halike⟩
      refine .some ⟨rfl, m, w', halike.addScope ?_⟩
      rw [hl]
      exact List.mem_cons_self
  | opensIn place =>
      refine h.inScope place fun x y known => ?_
      rcases h.jointly sound (.opens _ _ known) with ⟨w', hl, halike⟩
      refine ⟨rfl, m, w', halike.addScope ?_⟩
      rw [hl]
      exact List.mem_cons_self
  | cancels place =>
      refine h.inScope place fun x y known => ?_
      rcases h.jointly sound (.cancels _ _ known) with ⟨w', -, halike⟩
      exact ⟨rfl, m, w', halike⟩
  | connects place =>
      refine h.inScope place fun x y known => ?_
      rcases hsound.along_connect h.session known with ⟨w', hgrows, halong, hresult⟩
      exact ⟨congrArg Word.result hresult, m, w', h.withSession hgrows halong⟩
  | closes place =>
      refine h.inScope place fun x y known => ?_
      rcases hsound.along_close h.session known with ⟨w', hgrows, halong, hresult⟩
      exact ⟨congrArg Word.result hresult, m, w', h.withSession hgrows halong⟩
  | reads choice place => exact h.reads sound choice place
  | reports delivery appraisal =>
      refine rel_map (hsound.along_report h.session delivery (h.parts.outcome appraisal)) ?_
      rintro ⟨settlement, s⟩ ⟨settlement', t⟩ ⟨w', hgrows, halong, hresult⟩
      exact ⟨congrArg Word.settled hresult, m, w', h.withSession hgrows halong⟩
  | makes bytes =>
      rcases h.jointly sound (.mints _ _ _ 1) with ⟨w', hl, halike⟩
      refine .some ⟨rfl, m, w', halike.addParts (.cons ?_ .nil)⟩
      rw [h.session.bound.contents_eq]
      exact Part.Like.untagged _ _
  | tracks places =>
      rcases h.jointly sound (.groups _ _ _) with ⟨w', hl, halike⟩
      refine .some ⟨rfl, m, w', halike.addParts ?_⟩
      have hpick := h.parts.pick places
      have htag := hpick.tag (c.parts.pick places).length
      rw [← h.session.bound.groups_length, ← h.session.bound.groups_count] at htag
      rw [hl, hpick.length_eq]
      exact hpick.length_eq ▸ htag
  | changes change places => exact .some ⟨rfl, m, w, h.changes sound fair places⟩
  | waits ms =>
      have hbound := h.session.bound.advance ms
      exact .some ⟨rfl, m, w, h.withSession (.refl w) { h.session with bound := hbound }⟩

/-- Reads that are not behind go on alike. -/
theorem turn (h : Alike σ w 0 c d) (sound : σ.Sound) (choice : Choice) :
    Option.Rel (Together (Somehow σ)) (c.turn choice) (d.turn choice) := by
  have hsound := Stack.sound_lining sound.recorded settings height
  have hreaders := h.session.readers
  unfold Client.turn
  generalize hleft : c.session.readers = left at hreaders
  generalize hright : d.session.readers = right at hreaders
  cases hreaders with
  | idle => exact .none
  | busy id reads =>
      exact rel_map (hsound.along_stepRead h.session hleft hright reads choice)
        fun f g told => h.take told

/-- A read that is behind takes a turn by itself, and nobody notices. -/
theorem behind (h : Alike σ w (m + 1) c d) (sound : σ.Sound) (choice : Choice) :
    (d.turn choice).isSome ∧ ∃ c', c.turn choice = some (.nothing, c') ∧ Somehow σ m c' d := by
  have hsound := Stack.sound_lining sound.recorded settings height
  have hreaders := h.session.readers
  generalize hleft : c.session.readers = left at hreaders
  generalize hright : d.session.readers = right at hreaders
  cases hreaders with
  | @busy id _ q r reads =>
      rcases hsound.along_catchUp h.session hleft hright reads choice with
        ⟨w', s, hstep, hgrows, halong⟩
      have hwaits := hsound.step_of_behind reads choice d.session.ambient d.session.state
      constructor
      · have hstep : (d.session.stepRead choice id).isSome := by
          rw [Session.stepRead_only hright, Option.isSome_map]
          exact hwaits
        unfold Client.turn
        rw [hright]
        simpa only [List.head?_cons, Option.bind_some, Option.isSome_map] using hstep
      · refine ⟨{ c with session := s, parts := c.parts ++ [] }, ?_, w', ?_⟩
        · unfold Client.turn
          rw [hleft]
          exact congrArg (Option.map _) hstep
        · rw [List.append_nil]
          exact h.withSession hgrows halong

/-- Clients that are alike look the same, and the same has passed inside. -/
theorem sight_eq (h : Alike σ w m c d) (sound : σ.Sound) : c.sight = d.sight := by
  have hsound := Stack.sound_lining sound.recorded settings height
  have hsource := hsound.source h.session.beside.core
  rw [Stack.source_lining] at hsource
  have hnow := h.session.bound.now_eq
  have hwake := hsound.along_wake h.session
  have hlook := h.session.beside.stats_eq
  have hcalls := hsource.2.calls_eq
  unfold Client.sight
  rw [hnow, hwake, hlook]
  exact congrArg _ hcalls

end Alike

/-! ## New stacks -/

/-- Before anything has happened, the scopes of a new stack all stand for the one of a new layer. -/
theorem bound_new (prepared : Ambient) (height : Nat) :
    Bound ⟨⟨[], List.replicate prepared.mint.groups true⟩, List.replicate (height + 1) 0⟩ none
      { prepared with scopes := ⟨#[] ++ Array.replicate (height + 1) false⟩ }
      { prepared with scopes := ⟨#[] ++ Array.replicate 1 false⟩ } where
  now_eq := rfl
  wall_eq := rfl
  contents_eq := rfl
  groups_length := by simp
  groups_count := by simp
  length_eq := by simp
  lt_size n hn := by
    rw [List.eq_of_mem_replicate hn]
    exact Nat.zero_lt_one
  flag_iff n _ := by
    have hflag : ∀ count i, Scopes.flag ⟨#[] ++ Array.replicate count false⟩ i = false := by
      intro count i
      by_cases hi : i < count <;> simp [Scopes.flag, hi]
    simp only [hflag]
    simp
  tied _ h := absurd h List.not_mem_nil

/-- A client of a new stack and one of a new layer are alike. -/
theorem alike_start {source : P.State} {prepared : Ambient}
    (plain : σ.State ⟨[], List.replicate prepared.mint.groups true⟩ source source)
    (settings : Settings) (height : Nat) :
    Alike.Somehow σ 0 (start settings (List.replicate height settings) source prepared)
      (start settings [] source prepared) := by
  have hplain : σ.recorded.State ⟨[], List.replicate prepared.mint.groups true⟩ ⟨[], source⟩
      ⟨[], source⟩ := ⟨plain, rfl, rfl, rfl⟩
  have hcore := Stack.core_new hplain settings height { prepared with scopes := .empty }
  have hambient := fun layers => Stack.new_ambient (P := P.recorded) ⟨[], source⟩ layers
    { prepared with scopes := .empty }
  have hleft := hambient (settings :: List.replicate height settings)
  have hinner := hambient (List.replicate height settings)
  rw [List.length_cons, List.length_replicate] at hleft
  rw [List.length_replicate] at hinner
  refine ⟨⟨⟨[], List.replicate prepared.mint.groups true⟩, List.replicate (height + 1) 0⟩,
    ⟨?_, ⟨hcore, rfl, .nil, ?_⟩, .idle, .nil, rfl⟩, .nil, .nil⟩
  · change Bound _ none (Stack.new (P := P.recorded) _ _ _).2 (Stack.new (P := P.recorded) _ _ _).2
    rw [hleft, hambient [settings]]
    exact bound_new prepared height
  · change (List.replicate (height + 1) 0)[(Stack.new (P := P.recorded) ⟨[], source⟩
      (List.replicate height settings) _).2.scopes.flags.size]? = some 0
    rw [hinner]
    simp [Scopes.empty]

/-! ## Stacks -/

/-- Clients that are alike cannot be told from each other. -/
theorem indistinguishable_alike (sound : σ.Sound) :
    Indistinguishable σ fun m (c : Client P settings (List.replicate height settings)) d =>
      Alike.Somehow σ m c d where
  sight h := h.elim fun _ like => like.sight_eq sound
  does h deed fair := h.elim fun _ like => like.does sound deed fair
  turn h choice := h.elim fun _ like => like.turn sound choice
  behind h choice := h.elim fun _ like => like.behind sound choice

/-- Whatever comes of a client, there is one that it cannot be told from. -/
theorem Reaches.alike (sound : σ.Sound) {c₀ : Client P settings (List.replicate height settings)}
    {d₀ : Client P settings []} (like : Alike.Somehow σ 0 c₀ d₀) (h : Reaches σ c₀ c) :
    ∃ m d, Alike.Somehow σ m c d := by
  induction h with
  | start => exact ⟨0, d₀, like⟩
  | @does c c' deed word _ fair does ih =>
      rcases ih with ⟨m, d, hlike⟩
      have hdoes := (indistinguishable_alike sound).does hlike deed fair
      rw [does] at hdoes
      generalize d.does deed = found at hdoes
      cases hdoes with
      | some together =>
          rcases together with ⟨-, m', hlike'⟩
          exact ⟨m', _, hlike'⟩
  | @turn c c' choice word _ turn ih =>
      rcases ih with ⟨m, d, hlike⟩
      cases m with
      | zero =>
          have hturn := (indistinguishable_alike sound).turn hlike choice
          rw [turn] at hturn
          generalize d.turn choice = found at hturn
          cases hturn with
          | some together =>
              rcases together with ⟨-, m', hlike'⟩
              exact ⟨m', _, hlike'⟩
      | succ m =>
          rcases (indistinguishable_alike sound).behind hlike choice with ⟨-, c'', hturn, hlike'⟩
          rcases Prod.mk.inj (Option.some.inj (turn.symm.trans hturn)) with ⟨-, rfl⟩
          exact ⟨m, d, hlike'⟩

/-- All layers of a client that is like another one agree. -/
theorem Alike.level (h : Alike σ w m c d) : c.Level := by
  intro look hlook
  have hcore := h.session.beside.core
  rw [← h.session.beside.pending_eq] at hcore
  exact Stack.stats_lining settings height hcore look hlook

theorem level_of_reaches (sound : σ.Sound) {source : P.State} {prepared : Ambient}
    (plain : σ.State ⟨[], List.replicate prepared.mint.groups true⟩ source source)
    (h : Reaches σ (start settings (List.replicate height settings) source prepared) c) :
    c.Level := by
  rcases h.alike sound (alike_start plain settings height) with ⟨m, d, w, hlike⟩
  exact hlike.level

/-- A stack of layers with the same settings cannot be told from one of them, whatever a client
does and whatever the source is, as long as it does not look at numbers; and all layers of the
stack agree at all times. -/
theorem transparent (sound : σ.Sound) (settings : Settings) (height : Nat) (source : P.State)
    (prepared : Ambient)
    (plain : σ.State ⟨[], List.replicate prepared.mint.groups true⟩ source source) :
    (∃ R, Indistinguishable σ R ∧
      R 0 (start settings (List.replicate height settings) source prepared)
        (start settings [] source prepared)) ∧
    ∀ c, Reaches σ (start settings (List.replicate height settings) source prepared) c →
      c.Level :=
  ⟨⟨_, indistinguishable_alike sound, alike_start plain settings height⟩,
    fun _ => level_of_reaches sound plain⟩

/-- Three layers around a source in memory, into which a client may push, are as good as one. -/
theorem transparent_memory :
    Memory.semblance.Fair (fun batch m => m.push batch) ∧
      Memory.semblance.Fair (fun _ m => m.closeInput) ∧
      (∃ R, Indistinguishable Memory.semblance R ∧
        R 0 (start .default [.default, .default] Memory.empty (.start (.ofSeconds 0)))
          (start .default [] Memory.empty (.start (.ofSeconds 0)))) ∧
      ∀ c, Reaches Memory.semblance
        (start .default [.default, .default] Memory.empty (.start (.ofSeconds 0))) c → c.Level :=
  ⟨Memory.fair_push, Memory.fair_closeInput,
    transparent Memory.sound_semblance .default 2 Memory.empty (.start (.ofSeconds 0))
      (Memory.like_empty _)⟩

/-- Around a source that follows a script, whatever the script, a stack of layers is as good as one
of them. -/
theorem transparent_script (settings : Settings) (height : Nat) (script : Script)
    (prepared : Ambient) :
    (∃ R, Indistinguishable Script.semblance R ∧
      R 0 (start settings (List.replicate height settings) script prepared)
        (start settings [] script prepared)) ∧
    ∀ c, Reaches Script.semblance
      (start settings (List.replicate height settings) script prepared) c → c.Level :=
  ⟨⟨_, indistinguishable_alike Script.sound_semblance, alike_start rfl settings height⟩,
    fun _ => level_of_reaches Script.sound_semblance rfl⟩

end Client

end Redelivery
