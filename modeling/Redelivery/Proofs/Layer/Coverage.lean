import Redelivery.Proofs.Layer.Conservation
import Redelivery.Proofs.Layer.Narrowing

/-!
# No part is dropped

A failure that names parts narrows what is delivered again, and what is delivered again
may be narrowed once more.  However often that happens, and whatever parts the reports
name, a batch is settled only after each of its parts was in a delivery that was
reported as processed, or one whose report named other parts only.

Main definitions:

* `Spares`: a report that does not call for a part to be delivered again.
* `Accounts.Covered`: a part was in a delivery whose report spares it.
* `Accounts.Keeps`: an entry has every part that is not covered.
* `Accounts.Covering`: what every step keeps.

Main results:

* Theorem `Accounts.Reachable.covering`: accounts cover.
* Theorem `Watch.parts_covered`: no part is dropped, in any session.
-/

namespace Redelivery

/-! ## Copies -/

/-- All the parts of a batch are copies of parts of another, and there are some if the
other has some. -/
structure MadeFrom (source batch : Batch) : Prop where
  copies : ∀ part ∈ batch, ∃ original ∈ source, part.SharesContent original
  nonempty : source ≠ [] → batch ≠ []

theorem MadeFrom.refl (batch : Batch) : MadeFrom batch batch :=
  ⟨fun part hpart => ⟨part, hpart, rfl⟩, id⟩

/-- What is left of a batch by a failure is made from the same. -/
theorem MadeFrom.narrows {source kept subset : Batch} {group : Group} {failure : Failure}
    (h : MadeFrom source kept) (narrows : Narrows kept group failure subset) :
    MadeFrom source subset :=
  ⟨fun part hpart => h.copies part (narrows.mem hpart),
    fun hsource => narrows.ne_nil (h.nonempty hsource)⟩

namespace Held.Delivers

variable {ρ : Type} {held : Held ρ} {batch : Batch}

/-- What is delivered are copies of what the entry has, in the same places. -/
theorem getElem?_content (h : held.Delivers batch) (index : Nat) :
    batch[index]?.map Part.content = held.entry.batch[index]?.map Part.content := by
  cases h with
  | single => rfl
  | several =>
      rw [Group.getElem?_tag, Option.map_map]
      rfl

/-- A copy of each part of the entry is delivered. -/
theorem exists_copy (h : held.Delivers batch) {part : Part} (hpart : part ∈ held.entry.batch) :
    ∃ copy ∈ batch, copy.SharesContent part := by
  rcases List.getElem?_of_mem hpart with ⟨index, hindex⟩
  have hcontent := h.getElem?_content index
  rw [hindex, Option.map_some, Option.map_eq_some_iff] at hcontent
  rcases hcontent with ⟨copy, hcopy, hsame⟩
  exact ⟨copy, List.mem_of_getElem? hcopy, congrArg Content.serial hsame⟩

/-- What is delivered is made from what the entry is made from. -/
theorem madeFrom (h : held.Delivers batch) {source : Batch}
    (made : MadeFrom source held.entry.batch) : MadeFrom source batch := by
  constructor
  · intro copy hcopy
    rcases List.getElem?_of_mem hcopy with ⟨index, hindex⟩
    have hcontent := h.getElem?_content index
    rw [hindex, Option.map_some, eq_comm, Option.map_eq_some_iff] at hcontent
    rcases hcontent with ⟨part, hpart, hsame⟩
    rcases made.copies part (List.mem_of_getElem? hpart) with ⟨original, horiginal, hshares⟩
    refine ⟨original, horiginal, ?_⟩
    have hserial := congrArg Content.serial hsame
    exact hserial.symm.trans hshares
  · intro hsource hbatch
    have hlength := h.length_eq
    rw [hbatch, List.length_nil, eq_comm, List.length_eq_zero_iff] at hlength
    exact made.nonempty hsource hlength

end Held.Delivers

/-- A report that does not call for a part to be delivered again: success, or a failure
that names some parts and not all, each of them traced back to the delivery, and to a
place where there is another part. -/
inductive Spares {ρ : Type} (held : Held ρ) (batch : Batch) (part : Part) : Outcome → Prop
  | processed : Spares held batch part .processed
  | parts {group : Group} {partially : PartialFailure} (tracked : held.group = some group)
      (fewer : partially.errorCount < batch.length) (named : partially.failedParts ≠ [])
      (traced : ∀ failed ∈ partially.failedParts, ∃ index other,
        group.indexOf failed = some index ∧ batch[index]? = some other ∧
          ¬other.SharesContent part) :
      Spares held batch part (.failed (.parts partially))

/-- A failure narrows what its receipt delivered, by some group. -/
theorem Held.narrows_afterFailure {ρ : Type} (held : Held ρ) (failure : Failure) :
    ∃ group, Narrows held.entry.batch group failure (held.afterFailure failure).batch := by
  cases hgroup : held.group with
  | none => exact ⟨⟨0, 0⟩, by simpa [Held.afterFailure, hgroup] using .whole⟩
  | some group =>
      exact ⟨group, by simpa [Held.afterFailure, hgroup] using retrySubset_narrows ..⟩

/-- A failure leaves a copy of a part to deliver again, or its report spares the part. -/
theorem Held.Delivers.afterFailure {ρ : Type} {held : Held ρ} {batch : Batch}
    (h : held.Delivers batch) (failure : Failure) {part copy : Part}
    (hcopy : copy ∈ held.entry.batch) (hshares : copy.SharesContent part) :
    (∃ other ∈ (held.afterFailure failure).batch, other.SharesContent part) ∨
      Spares held batch part (.failed failure) := by
  cases hgroup : held.group with
  | none => exact .inl ⟨copy, by simpa [Held.afterFailure, hgroup] using hcopy, hshares⟩
  | some group =>
      have hbatch : (held.afterFailure failure).batch =
          retrySubset held.entry.batch group failure := by
        simp [Held.afterFailure, hgroup]
      rw [hbatch]
      rcases (retrySubset_narrows held.entry.batch group failure).covers with hall |
        ⟨partially, rfl, hfewer, hnamed, htraced⟩
      · exact .inl ⟨copy, hall.symm ▸ hcopy, hshares⟩
      · by_cases hleft : ∃ other ∈ retrySubset held.entry.batch group (.parts partially),
            other.SharesContent part
        · exact .inl hleft
        · refine .inr (.parts hgroup (h.length_eq ▸ hfewer) hnamed ?_)
          intro failed hfailed
          rcases htraced failed hfailed with ⟨index, original, horiginal, hindex, hkept⟩
          have hcontent := h.getElem?_content index
          rw [hkept, Option.map_some, Option.map_eq_some_iff] at hcontent
          rcases hcontent with ⟨other, hother, hsame⟩
          refine ⟨index, other, hindex, hother, fun hother => hleft ⟨original, horiginal, ?_⟩⟩
          have hserial := congrArg Content.serial hsame
          exact hserial.symm.trans hother

/-! ## What every step keeps -/

namespace Accounts

variable {ρ : Type} {x y : Accounts ρ}

/-- The port inside has handed out a batch under a number. -/
def Received (x : Accounts ρ) (number : Nat) (source : Batch) : Prop :=
  ∃ receipt, x.received[number]? = some (source, receipt)

/-- What was handed out at some place is for the batch with a number. -/
def Delivered (x : Accounts ρ) (k number : Nat) (batch : Batch) : Prop :=
  ∃ held, x.handed[k]? = some (batch, held) ∧ held.entry.number = number

/-- A part of the batch with a number was in a delivery whose report spares it. -/
def Covered (x : Accounts ρ) (number : Nat) (part : Part) : Prop :=
  ∃ k batch held outcome, x.handed[k]? = some (batch, held) ∧ held.entry.number = number ∧
    (∃ copy ∈ batch, copy.SharesContent part) ∧ (k, outcome) ∈ x.reported ∧
      Spares held batch part outcome

/-- The batch of an entry has every part that is not covered, is made from what was
received, and is no longer than what was delivered of it. -/
structure Keeps (x : Accounts ρ) (number : Nat) (batch : Batch) : Prop where
  remains : ∀ source, x.Received number source → ∀ part ∈ source,
    (∃ copy ∈ batch, copy.SharesContent part) ∨ x.Covered number part
  made : ∀ source, x.Received number source → MadeFrom source batch
  shortest : ∀ k delivered, x.Delivered k number delivered → batch.length ≤ delivered.length

/-- What is on its way keeps the parts that are not covered, and what is settled has
none. -/
structure Covering (x : Accounts ρ) : Prop where
  filed : ∀ (k : Nat) batch (held : Held (Numbered ρ)), x.handed[k]? = some (batch, held) →
    held.Delivers batch ∧ held.entry.number < x.received.length
  keeps : ∀ entry ∈ x.live, x.Keeps entry.number entry.batch
  settled : ∀ report ∈ x.settled, ∀ source, x.Received report.1 source →
    ∀ part ∈ source, x.Covered report.1 part
  made : ∀ k number batch source, x.Delivered k number batch → x.Received number source →
    MadeFrom source batch
  shorter : ∀ j k number earlier later, j < k → x.Delivered j number earlier →
    x.Delivered k number later → later.length ≤ earlier.length

theorem covering_empty : (empty : Accounts ρ).Covering where
  filed k batch held h := by simp [empty] at h
  keeps entry h := by simp [empty] at h
  settled report h := by simp [empty] at h
  made k number batch source h := by simp [Delivered, empty] at h
  shorter j k number earlier later _ h := by simp [Delivered, empty] at h

/-- What was covered stays so. -/
theorem Covered.mono {number : Nat} {part : Part} (h : x.Covered number part)
    (handed : x.handed <+: y.handed) (reported : x.reported ⊆ y.reported) :
    y.Covered number part := by
  rcases h with ⟨k, batch, held, outcome, hk, hnumber, hcopy, hreport, hspares⟩
  rcases handed with ⟨more, hmore⟩
  refine ⟨k, batch, held, outcome, ?_, hnumber, hcopy, reported hreport, hspares⟩
  rw [← hmore]
  exact getElem?_append_of_eq_some hk more

/-- A batch that was received under a number that is not new was received before. -/
theorem Received.of_prefix {number : Nat} {source : Batch} (h : y.Received number source)
    (received : x.received <+: y.received) (known : number < x.received.length) :
    x.Received number source := by
  rcases h with ⟨receipt, hreceipt⟩
  rcases received with ⟨more, hmore⟩
  rw [← hmore, List.getElem?_append_left known] at hreceipt
  exact ⟨receipt, hreceipt⟩

/-- An entry keeps what it kept as long as nothing is handed out for its batch. -/
theorem Keeps.mono {number : Nat} {batch : Batch} (h : x.Keeps number batch)
    (known : number < x.received.length) (received : x.received <+: y.received)
    (handed : x.handed <+: y.handed) (reported : x.reported ⊆ y.reported)
    (others : ∀ k delivered, y.Delivered k number delivered → x.Delivered k number delivered) :
    y.Keeps number batch where
  remains source hsource part hpart :=
    (h.remains source (hsource.of_prefix received known) part hpart).imp_right
      fun hcovered => hcovered.mono handed reported
  made source hsource := h.made source (hsource.of_prefix received known)
  shortest k delivered hdelivered := h.shortest k delivered (others k delivered hdelivered)

/-- A step that hands nothing out and receives nothing has to answer for entries and
settled batches that are new. -/
theorem Covering.of_handed_eq (hx : x.Covering) (hc : x.Conserved)
    (received : y.received = x.received) (handed : y.handed = x.handed)
    (reported : x.reported ⊆ y.reported)
    (live : ∀ entry ∈ y.live, (∃ other ∈ x.live, entry.number = other.number ∧
      entry.batch = other.batch) ∨ y.Keeps entry.number entry.batch)
    (settled : ∀ report ∈ y.settled, report ∈ x.settled ∨
      ∀ source, y.Received report.1 source → ∀ part ∈ source, y.Covered report.1 part) :
    y.Covering := by
  have hgrown : x.handed <+: y.handed := handed ▸ List.prefix_refl _
  refine ⟨?_, ?_, ?_, ?_, ?_⟩
  · rw [handed, received]
    exact hx.filed
  · intro entry hentry
    rcases live entry hentry with ⟨other, hother, hnumber, hbatch⟩ | hnew
    · rw [hnumber, hbatch]
      refine (hx.keeps other hother).mono (hc.live_lt_length hother)
        (received ▸ List.prefix_refl _) hgrown reported ?_
      simp only [Delivered, handed]
      exact fun _ _ h => h
    · exact hnew
  · intro report hreport source hsource part hpart
    rcases settled report hreport with hold | hnew
    · simp only [Received, received] at hsource
      exact (hx.settled report hold source hsource part hpart).mono hgrown reported
    · exact hnew source hsource part hpart
  · simp only [Delivered, Received, handed, received]
    exact hx.made
  · simp only [Delivered, handed]
    exact hx.shorter

/-- What is delivered after something was handed out is that, or was delivered before. -/
theorem delivered_append {batch : Batch} {held : Held (Numbered ρ)}
    (handed : y.handed = x.handed ++ [(batch, held)]) {k number : Nat} {delivered : Batch}
    (h : y.Delivered k number delivered) :
    x.Delivered k number delivered ∨
      k = x.handed.length ∧ batch = delivered ∧ held.entry.number = number := by
  rcases h with ⟨held', hk, hnumber⟩
  rw [handed] at hk
  rcases getElem?_append_singleton_eq_some hk with hold | ⟨hlast, heq⟩
  · exact .inl ⟨held', hold, hnumber⟩
  · rcases Prod.mk.inj heq with ⟨rfl, rfl⟩
    exact .inr ⟨hlast, rfl, hnumber⟩

/-- Something that was delivered has its place among what was handed out. -/
theorem Delivered.lt_length {k number : Nat} {batch : Batch} (h : x.Delivered k number batch) :
    k < x.handed.length := by
  rcases h with ⟨held, hk, -⟩
  exact (List.getElem?_eq_some_iff.1 hk).1

/-- An entry is handed out. -/
theorem Covering.hands (hx : x.Covering) {entry : Entry (Numbered ρ)}
    {rest : Multiset (Entry (Numbered ρ))} (live : x.live = entry ::ₘ rest)
    (others : ∀ other ∈ rest, other.number ≠ entry.number)
    (known : ∀ other ∈ x.live, other.number < x.received.length) {batch : Batch}
    {held : Held (Numbered ρ)} (number : held.entry.number = entry.number)
    (same : held.entry.batch = entry.batch) (delivers : held.Delivers batch) :
    Covering { x with live := held.entry ::ₘ rest, handed := x.handed ++ [(batch, held)] } := by
  have hentry : entry ∈ x.live := by simp [live]
  have hkeeps := hx.keeps entry hentry
  have hlength : batch.length = entry.batch.length := by rw [delivers.length_eq, same]
  have hgrown : x.handed <+: x.handed ++ [(batch, held)] := List.prefix_append ..
  refine ⟨?_, ?_, ?_, ?_, ?_⟩
  · intro k batch' held' hk
    rcases getElem?_append_singleton_eq_some hk with hold | ⟨-, heq⟩
    · exact hx.filed k batch' held' hold
    · rcases Prod.mk.inj heq with ⟨rfl, rfl⟩
      exact ⟨delivers, number ▸ known entry hentry⟩
  · intro other hother
    rcases Multiset.mem_cons.1 hother with rfl | hother
    · rw [number, same]
      refine ⟨?_, hkeeps.made, ?_⟩
      · intro source hsource part hpart
        exact (hkeeps.remains source hsource part hpart).imp_right
          fun hcovered => hcovered.mono hgrown (List.Subset.refl _)
      · intro k delivered hdelivered
        rcases delivered_append rfl hdelivered with hold | ⟨-, rfl, -⟩
        · exact hkeeps.shortest k delivered hold
        · exact Nat.le_of_eq hlength.symm
    · have hlive : other ∈ x.live := by simp [live, hother]
      refine (hx.keeps other hlive).mono (known other hlive) (List.prefix_refl _) hgrown
        (List.Subset.refl _) ?_
      intro k delivered hdelivered
      rcases delivered_append rfl hdelivered with hold | ⟨-, -, hnumber⟩
      · exact hold
      · exact absurd (hnumber.symm.trans number) (others other hother)
  · intro report hreport source hsource part hpart
    exact (hx.settled report hreport source hsource part hpart).mono hgrown (List.Subset.refl _)
  · intro k number' batch' source hdelivered hsource
    rcases delivered_append rfl hdelivered with hold | ⟨-, rfl, rfl⟩
    · exact hx.made k number' batch' source hold hsource
    · exact delivers.madeFrom (same ▸ hkeeps.made source (number ▸ hsource))
  · intro j k number' earlier later hjk hearlier hlater
    rcases delivered_append rfl hlater with hlater | ⟨rfl, rfl, rfl⟩
    · rcases delivered_append rfl hearlier with hearlier | ⟨rfl, -, -⟩
      · exact hx.shorter j k number' earlier later hjk hearlier hlater
      · exact absurd hlater.lt_length (Nat.not_lt_of_gt hjk)
    -- What is handed out now is as long as its entry, which has never grown.
    · rcases delivered_append rfl hearlier with hearlier | ⟨rfl, -, -⟩
      · rw [hlength]
        exact hkeeps.shortest j earlier (number ▸ hearlier)
      · exact absurd hjk (Nat.lt_irrefl _)

/-- A batch is received. -/
theorem Covering.receives (hx : x.Covering)
    (known : ∀ other ∈ x.live, other.number < x.received.length)
    (settled : ∀ report ∈ x.settled, report.1 < x.received.length) (batch : Batch) (receipt : ρ)
    (policy : Policy) (pending : Int) :
    Covering { x with
      live := .fresh batch ⟨x.received.length, receipt⟩ policy ::ₘ x.live
      pending
      received := x.received ++ [(batch, receipt)] } := by
  refine ⟨?_, ?_, ?_, ?_, hx.shorter⟩
  · intro k batch' held hk
    rcases hx.filed k batch' held hk with ⟨hdelivers, hlt⟩
    exact ⟨hdelivers, by simpa using Nat.lt_succ_of_lt hlt⟩
  · intro other hother
    rcases Multiset.mem_cons.1 hother with rfl | hother
    · have hsource : ∀ source, Received { x with
          live := .fresh batch ⟨x.received.length, receipt⟩ policy ::ₘ x.live
          pending
          received := x.received ++ [(batch, receipt)] } x.received.length source →
          source = batch := by
        rintro source ⟨receipt', hreceipt⟩
        simpa using (congrArg (Option.map Prod.fst) hreceipt).symm
      refine ⟨?_, ?_, ?_⟩
      · intro source hreceived part hpart
        rw [hsource source hreceived] at hpart
        exact .inl ⟨part, hpart, rfl⟩
      · intro source hreceived
        rw [hsource source hreceived]
        exact .refl _
      · rintro k delivered ⟨held, hk, hnumber⟩
        have hlt := (hx.filed k delivered held hk).2
        exact absurd hnumber (Nat.ne_of_lt hlt)
    · exact (hx.keeps other hother).mono (known other hother) (List.prefix_append ..)
        (List.prefix_refl _) (List.Subset.refl _) (fun k delivered hdelivered => hdelivered)
  · intro report hreport source hsource part hpart
    have hbefore := hsource.of_prefix (List.prefix_append ..) (settled report hreport)
    have hcovered := hx.settled report hreport source hbefore part hpart
    exact hcovered.mono (List.prefix_refl _) (List.Subset.refl _)
  · rintro k number batch' source ⟨held, hk, rfl⟩ hsource
    have hlt := (hx.filed k batch' held hk).2
    exact hx.made k _ batch' source ⟨held, hk, rfl⟩ (hsource.of_prefix (List.prefix_append ..) hlt)

/-- A failure leaves an entry that keeps what is not covered. -/
theorem Covering.fails (hx : x.Covering) (hc : x.Conserved) {batch : Batch}
    {held : Held (Numbered ρ)} {rest : Multiset (Entry (Numbered ρ))} {k : Nat} (failure : Failure)
    (time : Timestamp) (live : x.live = held.entry ::ₘ rest)
    (handed : x.handed[k]? = some (batch, held)) :
    Covering { x with
      live := (held.afterFailure failure).markFailed time ::ₘ rest
      reported := x.reported ++ [(k, .failed failure)] } := by
  have hentry : held.entry ∈ x.live := by simp [live]
  have hkeeps := hx.keeps held.entry hentry
  have hdelivers := (hx.filed k batch held handed).1
  rcases held.narrows_afterFailure failure with ⟨group, hnarrows⟩
  have hreported : x.reported ⊆ x.reported ++ [(k, .failed failure)] :=
    List.subset_append_left ..
  refine hx.of_handed_eq hc rfl rfl hreported ?_ fun _ h => .inl h
  intro other hother
  rcases Multiset.mem_cons.1 hother with rfl | hother
  · right
    have hnumber : ((held.afterFailure failure).markFailed time).number = held.entry.number := by
      simp [Entry.number]
    rw [hnumber]
    refine ⟨?_, ?_, ?_⟩
    · intro source hsource part hpart
      rcases hkeeps.remains source hsource part hpart with ⟨copy, hcopy, hshares⟩ | hcovered
      -- A part that the failure leaves out was in this delivery, whose report spares it.
      · apply (hdelivers.afterFailure failure hcopy hshares).imp_right
        intro hspares
        rcases hdelivers.exists_copy hcopy with ⟨delivered, hdelivered, hsame⟩
        exact ⟨k, batch, held, _, handed, rfl, ⟨delivered, hdelivered, hsame.trans hshares⟩,
          by simp, hspares⟩
      · exact .inr (hcovered.mono (List.prefix_refl _) hreported)
    · intro source hsource
      exact (hkeeps.made source hsource).narrows hnarrows
    · intro j delivered hdelivered
      exact Nat.le_trans hnarrows.length_le (hkeeps.shortest j delivered hdelivered)
  · exact .inl ⟨other, by simp [live, hother], rfl, rfl⟩

/-- Success covers what the entry keeps. -/
theorem Covering.settles (hx : x.Covering) (hc : x.Conserved) {batch : Batch}
    {held : Held (Numbered ρ)} {rest : Multiset (Entry (Numbered ρ))} {k : Nat}
    (live : x.live = held.entry ::ₘ rest) (handed : x.handed[k]? = some (batch, held)) :
    Covering { x with
      live := rest
      pending := x.pending - 1
      settled := x.settled ++ [(held.entry.number, .processed)]
      reported := x.reported ++ [(k, .processed)] } := by
  have hkeeps := hx.keeps held.entry (by simp [live])
  have hdelivers := (hx.filed k batch held handed).1
  have hreported : x.reported ⊆ x.reported ++ [(k, .processed)] := List.subset_append_left ..
  refine hx.of_handed_eq hc rfl rfl hreported ?_ ?_
  · intro other hother
    exact .inl ⟨other, by simp [live, hother], rfl, rfl⟩
  · intro report hreport
    rcases List.mem_append.1 hreport with hold | hnew
    · exact .inl hold
    · right
      obtain rfl := List.mem_singleton.1 hnew
      intro source hsource part hpart
      rcases hkeeps.remains source hsource part hpart with ⟨copy, hcopy, hshares⟩ | hcovered
      · rcases hdelivers.exists_copy hcopy with ⟨delivered, hdelivered, hsame⟩
        exact ⟨k, batch, held, .processed, handed, rfl,
          ⟨delivered, hdelivered, hsame.trans hshares⟩, by simp, .processed⟩
      · exact hcovered.mono (List.prefix_refl _) hreported

/-- Every step covers. -/
theorem Step.covering (h : Step x y) (hc : x.Conserved) (hx : x.Covering) : y.Covering := by
  cases h with
  | stays => exact hx
  | breaks read =>
      exact hx.of_handed_eq hc rfl rfl (List.Subset.refl _)
        (fun entry h => .inl ⟨entry, h, rfl, rfl⟩) fun _ h => .inl h
  | @loses entry rest read live =>
      refine hx.of_handed_eq hc rfl rfl (List.Subset.refl _) ?_ fun _ h => .inl h
      intro other hother
      exact .inl ⟨other, by simp [live, hother], rfl, rfl⟩
  | @paces entry rest backoff live =>
      refine hx.of_handed_eq hc rfl rfl (List.Subset.refl _) ?_ fun _ h => .inl h
      intro other hother
      rcases Multiset.mem_cons.1 hother with rfl | hother
      · exact .inl ⟨entry, by simp [live], rfl, rfl⟩
      · exact .inl ⟨other, by simp [live, hother], rfl, rfl⟩
  | @receives batch batch' receipt policy held fresh delivers =>
      -- Receiving and handing out are one step; between the two the entry is on its way.
      have hreceives := hx.receives (fun _ h => hc.live_lt_length h)
        (fun _ h => hc.settled_lt_length h) batch receipt policy (x.pending + 1)
      refine hreceives.hands rfl ?_ ?_ (by rw [fresh]) (by rw [fresh]) delivers
      · intro other hother
        exact Nat.ne_of_lt (hc.live_lt_length hother)
      · intro other hother
        rw [List.length_append, List.length_singleton]
        rcases Multiset.mem_cons.1 hother with rfl | hother
        · exact Nat.lt_succ_self _
        · exact Nat.lt_succ_of_lt (hc.live_lt_length hother)
  | @redelivers entry rest backoff batch held live again delivers =>
      exact hx.hands live (fun other hother => hc.number_ne live hother)
        (fun other hother => hc.live_lt_length hother) (by rw [again]; rfl) (by rw [again]) delivers
  | fails failure time live handed => exact hx.fails hc failure time live handed
  | settles live handed => exact hx.settles hc live handed

/-- Whatever is reached covers. -/
theorem Reachable.covering (h : x.Reachable) : x.Covering := by
  induction h with
  | empty => exact covering_empty
  | step hreach hstep ih => exact hstep.covering hreach.conserved ih

end Accounts

/-! ## Sessions -/

namespace Watch

variable {settings : Settings} {P : Port}

/-- What became of the parts of a batch of the source.  If the batch is settled, each of
them was in a delivery whose report spares it.  All deliveries of the batch are made
from it, and each is no longer than those before. -/
structure PartsCovered (s : Watch settings P) (number : Nat) (source : Batch) : Prop where
  settled : number ∈ s.source.reports.map Prod.fst → ∀ part ∈ source,
    ∃ (k : Nat) (batch : Batch) (held : Held (Numbered P.Receipt)) (outcome : Outcome),
      s.journal.issued[k]? = some (batch, held) ∧
      held.entry.number = number ∧ (∃ copy ∈ batch, copy.SharesContent part) ∧
      (k, outcome) ∈ s.journal.reports ∧ Spares held batch part outcome
  copies : ∀ batch held, (batch, held) ∈ s.journal.issued → held.entry.number = number →
    ∀ part ∈ batch, ∃ original ∈ source, part.SharesContent original
  nonempty : source ≠ [] → ∀ batch held, (batch, held) ∈ s.journal.issued →
    held.entry.number = number → batch ≠ []
  shorter : ∀ (j k : Nat) (earlier later : Batch) (held held' : Held (Numbered P.Receipt)), j < k →
    s.journal.issued[j]? = some (earlier, held) → held.entry.number = number →
    s.journal.issued[k]? = some (later, held') → held'.entry.number = number →
    later.length ≤ earlier.length

/-- In every session, no part of any batch is dropped. -/
theorem parts_covered {source : P.State} {a : Ambient} {s : Watch settings P}
    (h : Session.Reaches (anyone settings P) (start settings source a) s) {number : Nat}
    {batch : Batch} {receipt : P.Receipt}
    (received : s.source.issued[number]? = some (batch, receipt)) :
    s.PartsCovered number batch := by
  have hx := (reachable_accounts (fun _ hf => hf) h).covering
  have hreceived : s.accounts.Received number batch := ⟨receipt, received⟩
  refine ⟨?_, ?_, ?_, ?_⟩
  · intro hsettled part hpart
    rcases List.mem_map.1 hsettled with ⟨report, hreport, rfl⟩
    exact hx.settled report hreport batch hreceived part hpart
  · intro delivered held hissued hnumber
    rcases List.getElem?_of_mem hissued with ⟨k, hk⟩
    exact (hx.made k number delivered batch ⟨held, hk, hnumber⟩ hreceived).copies
  · intro hbatch delivered held hissued hnumber
    rcases List.getElem?_of_mem hissued with ⟨k, hk⟩
    exact (hx.made k number delivered batch ⟨held, hk, hnumber⟩ hreceived).nonempty hbatch
  · intro j k earlier later held held' hjk hj hheld hk hheld'
    exact hx.shorter j k number earlier later hjk ⟨held, hj, hheld⟩ ⟨held', hk, hheld'⟩

/-- Of a batch of two parts the first fails and is delivered again alone. -/
theorem parts_covered_tour :
    Tour.processed.source.issued[0]? = some (Tour.batch, ⟨0, Tour.batch.texts⟩) ∧
      Tour.processed.PartsCovered 0 Tour.batch :=
  ⟨rfl, parts_covered (anyone_of_alone Tour.reached_processed) rfl⟩

end Watch

end Redelivery
