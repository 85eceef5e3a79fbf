/-
# What the capability tables hold

Every call of the security manager does one of three things to the tables: nothing, one
capability more in a free slot, or one less.
-/

import Aeos.Security.Model

namespace Aeos.Security

open Lib List Option Function

structure Inv (s : State) : Prop where
  count : ∀ t, (s.manager.capabilities t).count = (s.caps t).occupied
  empty : s.manager.initialized = false → ∀ t, s.caps t = fun _ => none
  range : ∀ t, maxTasks ≤ t → s.caps t = fun _ => none
  next : s.nextCapId < usizeBound

def State.fill (s : State) (c : Capability) (slot : Fin maxCapabilitiesPerTask) :
  Nat → Slots maxCapabilitiesPerTask Capability :=
  update s.caps c.taskId (update (s.caps c.taskId) slot (some c))

def State.clear (s : State) (t : Nat) (slot : Fin maxCapabilitiesPerTask) :
  Nat → Slots maxCapabilitiesPerTask Capability :=
  update s.caps t (update (s.caps t) slot none)

inductive Effect (s : State) (e : Event) : Prop
  | kept (hmade : made s e = none) (hrevoked : revoked s e = none)
      (hcaps : (react s e).caps = s.caps) (hnext : (react s e).nextCapId = s.nextCapId)
  | made (c : Capability) (slot : Fin maxCapabilitiesPerTask) (hmade : made s e = some c)
      (hrevoked : revoked s e = none) (hid : c.id = s.nextCapId) (htask : c.taskId < maxTasks)
      (hfree : s.caps c.taskId slot = none) (hcaps : (react s e).caps = s.fill c slot)
      (hnext : (react s e).nextCapId = (s.nextCapId + 1) % usizeBound)
  | revoked (t : Nat) (c : Capability) (slot : Fin maxCapabilitiesPerTask)
      (hmade : made s e = none) (hrevoked : revoked s e = some (t, c.id))
      (hused : s.caps t slot = some c) (hcaps : (react s e).caps = s.clear t slot)
      (hnext : (react s e).nextCapId = s.nextCapId)

lemma caps_setCaps (s : State) (t : Nat) (set : CapabilitySet) (ty : AuditEventType)
  (id : Nat) : (s.setCaps t set ty id).caps = update s.caps t set.caps := by
  funext i
  by_cases hi : i = t
  · subst i
    simp only [State.caps, State.setCaps, update_self]
  · simp only [State.caps, State.setCaps, update_of_ne hi]

variable {s : State} {t : Nat}

lemma Inv.free (h : Inv s) (hcount : (s.manager.capabilities t).count < maxCapabilitiesPerTask) :
  ∃ slot, (s.caps t).position Option.isNone = some slot ∧ s.caps t slot = none := by
  rw [h.count] at hcount
  obtain ⟨i, hi⟩ := Slots.exists_free hcount
  cases hpos : (s.caps t).position Option.isNone with
  | none =>
    have hused := Slots.position_none hpos i
    rw [hi] at hused
    cases hused
  | some slot => exact ⟨slot, rfl, isNone_iff_eq_none.mp (Slots.position_some hpos)⟩

def State.granted (s : State) (c : Capability) (slot : Fin maxCapabilitiesPerTask) : State :=
  { s with nextCapId := (s.nextCapId + 1) % usizeBound }.setCaps c.taskId
    { s.manager.capabilities c.taskId with
      caps := update (s.caps c.taskId) slot (some c)
      count := (s.manager.capabilities c.taskId).count + 1 }
    .capabilityGranted c.id

def State.cleared (s : State) (t : Nat) (slot : Fin maxCapabilitiesPerTask) (id : Nat) : State :=
  s.setCaps t
    { s.manager.capabilities t with
      caps := update (s.caps t) slot none
      count := (s.manager.capabilities t).count - 1 }
    .capabilityRevoked id

lemma grant_cases (h : Inv s) (t : Nat) (ty : ResourceType) (rid : Nat) (rights : Rights) :
  (∃ err, grant s t ty rid rights = (.error err, s)) ∨
    ∃ slot, s.manager.initialized = true ∧ t < maxTasks ∧ s.caps t slot = none ∧
      grant s t ty rid rights =
        (.ok s.nextCapId, s.granted ⟨s.nextCapId, t, ty, rid, rights⟩ slot) := by
  by_cases hinit : s.manager.initialized = true
  · by_cases ht : maxTasks ≤ t
    · exact .inl ⟨.invalidResource, by simp [grant, hinit, ht]⟩
    by_cases hfull : maxCapabilitiesPerTask ≤ (s.manager.capabilities t).count
    · exact .inl ⟨.capabilityTableFull, by simp [grant, hinit, ht, hfull]⟩
    obtain ⟨slot, hpos, hfree⟩ := h.free (Nat.not_le.mp hfull)
    rw [State.caps] at hpos
    refine .inr ⟨slot, hinit, Nat.not_le.mp ht, hfree, ?_⟩
    simp only [grant, hinit, Bool.not_true, Bool.false_eq_true, if_false, ht, hfull, hpos]
    rfl
  · exact .inl ⟨.notInitialized, by simp [grant, hinit]⟩

lemma revoke_cases (s : State) (t : Nat) (id : Nat) : (∃ err, revoke s t id = (.error err, s)) ∨
    ∃ slot c, s.caps t slot = some c ∧ c.id = id ∧
      revoke s t id = (.ok (), s.cleared t slot id) := by
  by_cases hinit : s.manager.initialized = true
  · by_cases ht : maxTasks ≤ t
    · exact .inl ⟨.invalidResource, by simp [revoke, hinit, ht]⟩
    cases hpos : (s.caps t).position fun cap => cap.any fun c => c.id == id with
    | none =>
      rw [State.caps] at hpos
      exact .inl ⟨.capabilityNotFound, by simp [revoke, hinit, ht, hpos]⟩
    | some slot =>
      have htest := Slots.position_some hpos
      obtain ⟨c, hc⟩ : ∃ c, s.caps t slot = some c := by
        cases hc : s.caps t slot with
        | none =>
          rw [hc] at htest
          cases htest
        | some c => exact ⟨c, rfl⟩
      rw [hc] at htest
      rw [State.caps] at hpos
      refine .inr ⟨slot, c, hc, beq_iff_eq.mp htest, ?_⟩
      simp only [revoke, hinit, Bool.not_true, Bool.false_eq_true, if_false, ht, hpos]
      rfl
  · exact .inl ⟨.notInitialized, by simp [revoke, hinit]⟩

variable {c : Capability}

lemma source_some {id : Nat} (h : source s t id = some c) :
  (∃ slot, s.caps t slot = some c) ∧ c.id = id := by
  obtain ⟨hfirst, hid⟩ := filter_eq_some_iff.mp h
  obtain ⟨slot, _, hslot⟩ := bind_eq_some_iff.mp hfirst
  exact ⟨⟨slot, hslot⟩, beq_iff_eq.mp hid⟩

lemma delegate_cases (s : State) (fromTask toTask : Nat) (id : Nat) (new : Rights) :
  (∃ err, delegate s fromTask toTask id new = (.error err, s)) ∨
    ∃ c, source s fromTask id = some c ∧ c.rights.contains Rights.grant = true ∧
      delegate s fromTask toTask id new =
        grant s toTask c.resourceType c.resourceId (c.rights &&& new) := by
  by_cases hinit : s.manager.initialized = true
  · by_cases ht : maxTasks ≤ fromTask ∨ maxTasks ≤ toTask
    · exact .inl ⟨.invalidResource, by simp [delegate, hinit, ht]⟩
    cases hsource : source s fromTask id with
    | none => exact .inl ⟨.capabilityNotFound, by simp [delegate, hinit, ht, hsource]⟩
    | some c =>
      by_cases hgrant : c.rights.contains Rights.grant = true
      · exact .inr ⟨c, rfl, hgrant, by simp [delegate, hinit, ht, hsource, hgrant]⟩
      · exact .inl ⟨.delegationNotAllowed, by simp [delegate, hinit, ht, hsource, hgrant]⟩
  · exact .inl ⟨.notInitialized, by simp [delegate, hinit]⟩

lemma caps_granted (s : State) (c : Capability) (slot : Fin maxCapabilitiesPerTask) :
  (s.granted c slot).caps = s.fill c slot := caps_setCaps ..

lemma caps_cleared (s : State) (t : Nat) (slot : Fin maxCapabilitiesPerTask)
  (id : Nat) : (s.cleared t slot id).caps = s.clear t slot := caps_setCaps ..

section
variable {s : State} (h : Inv s)
include h
variable {c : Capability} {slot : Fin maxCapabilitiesPerTask}

lemma Inv.granted (hinit : s.manager.initialized = true) (htask : c.taskId < maxTasks)
  (hfree : s.caps c.taskId slot = none) : Inv (s.granted c slot) := by
  refine ⟨fun t => ?_, fun hnot => ?_, fun t ht => ?_, Nat.mod_lt _ (by decide)⟩
  · rw [caps_granted, State.fill]
    by_cases ht : t = c.taskId
    · subst t
      rw [update_self, Slots.occupied_fill hfree, ← h.count]
      simp only [State.granted, State.setCaps, update_self]
    rw [update_of_ne ht, ← h.count]
    simp only [State.granted, State.setCaps, update_of_ne ht]
  · rw [show (s.granted c slot).manager.initialized = s.manager.initialized from rfl, hinit] at hnot
    cases hnot
  rw [caps_granted, State.fill, update_of_ne (by omega)]
  exact h.range t ht

lemma Inv.cleared {t : Nat} (hused : s.caps t slot = some c) (id : Nat) :
  Inv (s.cleared t slot id) := by
  refine ⟨fun i => ?_, fun hnot i => ?_, fun i hi => ?_, h.next⟩
  · rw [caps_cleared, State.clear]
    by_cases hi : i = t
    · subst i
      have hone := Slots.occupied_clear hused
      simp only [State.cleared, State.setCaps, update_self, h.count]
      omega
    rw [update_of_ne hi, ← h.count]
    simp only [State.cleared, State.setCaps, update_of_ne hi]
  · rw [h.empty hnot] at hused
    cases hused
  have hne : i ≠ t := by
    rintro rfl
    rw [h.range i hi] at hused
    cases hused
  rw [caps_cleared, State.clear, update_of_ne hne]
  exact h.range i hi

lemma init_kept : (init s).2.caps = s.caps ∧ (init s).2.nextCapId = s.nextCapId ∧
  Inv (init s).2 := by
  by_cases hinit : s.manager.initialized = true
  · have hsame : (init s).2 = s := by simp only [init, hinit, if_true]
    rw [hsame]
    exact ⟨rfl, rfl, h⟩
  have hcaps : (init s).2.caps = s.caps := by
    funext t
    by_cases ht : t = 0
    · subst t
      simp [init, hinit, State.caps]
    · simp [init, hinit, State.caps, ht]
  refine ⟨hcaps, by simp [init, hinit], fun t => ?_, fun hnot => ?_, ?_, ?_⟩
  · have hempty := h.empty (Bool.not_eq_true _ ▸ hinit) t
    have hcount := h.count t
    rw [hcaps, ← hcount]
    by_cases ht : t = 0
    · subst t
      rw [hempty] at hcount
      simp [init, hinit, hcount, Slots.occupied]
    · simp [init, hinit, ht]
  · simp [init, hinit] at hnot
  · rw [hcaps]
    exact h.range
  · simpa [init, hinit] using h.next

lemma effect_of_failed {e : Event} (hstep : react s e = s) (hmade : made s e = none)
  (hrevoked : revoked s e = none) : Effect s e ∧ Inv (react s e) := by
  refine ⟨.kept hmade hrevoked (by rw [hstep]) (by rw [hstep]), ?_⟩
  rwa [hstep]

lemma effect_of_granted {e : Event} (hstep : react s e = s.granted c slot)
  (hmade : made s e = some c) (hrevoked : revoked s e = none) (hid : c.id = s.nextCapId)
  (hinit : s.manager.initialized = true) (htask : c.taskId < maxTasks)
  (hfree : s.caps c.taskId slot = none) : Effect s e ∧ Inv (react s e) := by
  refine ⟨.made c slot hmade hrevoked hid htask hfree ?_ ?_, ?_⟩
  · rw [hstep, caps_granted]
  · rw [hstep]
    rfl
  rw [hstep]
  exact h.granted hinit htask hfree

lemma react_effect (e : Event) : Effect s e ∧ Inv (react s e) := by
  cases e with
  | init =>
    obtain ⟨hcaps, hnext, hinv⟩ := init_kept h
    exact ⟨.kept rfl rfl hcaps hnext, hinv⟩
  | grant t ty rid rights =>
    rcases grant_cases h t ty rid rights with ⟨err, heq⟩ | ⟨slot, hinit, ht, hfree, heq⟩
    · exact effect_of_failed h (by rw [react, heq]) (by simp only [made, heq]) rfl
    exact effect_of_granted h (c := ⟨s.nextCapId, t, ty, rid, rights⟩) (by rw [react, heq])
      (by simp only [made, heq]) rfl rfl hinit ht hfree
  | delegate fromTask toTask id new =>
    rcases delegate_cases s fromTask toTask id new with ⟨err, heq⟩ | ⟨c, hsource, _, heq⟩
    · exact effect_of_failed h (by rw [react, heq]) (by simp only [made, heq]) rfl
    rcases grant_cases h toTask c.resourceType c.resourceId (c.rights &&& new) with
      ⟨err, hgrant⟩ | ⟨slot, hinit, ht, hfree, hgrant⟩
    · exact effect_of_failed h (by rw [react, heq, hgrant]) (by simp only [made, heq, hgrant])
        rfl
    exact effect_of_granted h
      (c := ⟨s.nextCapId, toTask, c.resourceType, c.resourceId, c.rights &&& new⟩)
      (by rw [react, heq, hgrant]) (by simp only [made, heq, hgrant, hsource, map_some])
      rfl rfl hinit ht hfree
  | revoke t id =>
    rcases revoke_cases s t id with ⟨err, heq⟩ | ⟨slot, c, hused, rfl, heq⟩
    · exact effect_of_failed h (by rw [react, heq]) rfl (by simp only [revoked, heq])
    have hstep : react s (.revoke t c.id) = s.cleared t slot c.id := by rw [react, heq]
    refine ⟨.revoked t c slot rfl (by simp only [revoked, heq]) hused ?_ ?_, ?_⟩
    · rw [hstep, caps_cleared]
    · rw [hstep]
      rfl
    rw [hstep]
    exact h.cleared hused c.id

end

lemma inv_of_init (h : machine.init s) : Inv s := by
  obtain ⟨hnew, hnext⟩ := h
  have hempty : ∀ t, s.caps t = fun _ => none := by
    simp [State.caps, hnew, SecurityManager.new, CapabilitySet.new]
  refine ⟨fun t => ?_, fun _ => hempty, fun t _ => hempty t, hnext⟩
  rw [hempty]
  simp [hnew, SecurityManager.new, CapabilitySet.new, Slots.occupied]

lemma inv_of_reachable (h : machine.Reachable s) : Inv s :=
  h.invariant Inv (fun _ => inv_of_init) fun _ e hinv _ => (react_effect hinv e).2

abbrev History := List (State × Event)

/-- `Outstanding t h m`: of what the calls of `h` made for task `t`, the capabilities
`m` are left when every revocation has taken away one with its id. -/
inductive Outstanding (t : Nat) : History → Multiset Capability → Prop
  | start : Outstanding t [] 0
  | made {h : History} {m : Multiset Capability} {x : State × Event} {c : Capability} :
      Outstanding t h m → made x.1 x.2 = some c → c.taskId = t → Outstanding t (h ++ [x]) (c ::ₘ m)
  | revoked {h : History} {m : Multiset Capability} {x : State × Event} {c : Capability} :
      Outstanding t h (c ::ₘ m) → revoked x.1 x.2 = some (t, c.id) → Outstanding t (h ++ [x]) m
  | other {h : History} {m : Multiset Capability} {x : State × Event} :
      Outstanding t h m → (∀ c ∈ made x.1 x.2, c.taskId ≠ t) →
      (∀ r ∈ revoked x.1 x.2, r.1 ≠ t) → Outstanding t (h ++ [x]) m

/-- Some call of the history made this capability for task `t`, and it has not been
revoked since. -/
def MadeAndKept (h : History) (t : Nat) (c : Capability) : Prop :=
  ∃ before x after, h = before ++ x :: after ∧ made x.1 x.2 = some c ∧ c.taskId = t ∧
    ∀ y ∈ after, revoked y.1 y.2 ≠ some (t, c.id)

/-- The capabilities the calls of a history made. -/
def allMade (h : History) : List Capability := h.filterMap fun x => made x.1 x.2

lemma allMade_snoc (h : History) (x : State × Event) :
  allMade (h ++ [x]) = allMade h ++ (made x.1 x.2).toList := by
  cases hx : made x.1 x.2 with
  | none => simp [allMade, hx]
  | some c => simp [allMade, hx]

lemma madeAndKept_snoc {h : History} {x : State × Event} : MadeAndKept (h ++ [x]) t c ↔
    (made x.1 x.2 = some c ∧ c.taskId = t) ∨
      (MadeAndKept h t c ∧ revoked x.1 x.2 ≠ some (t, c.id)) := by
  constructor
  · rintro ⟨before, y, after, heq, hmade, ht, hkept⟩
    rcases eq_nil_or_concat after with rfl | ⟨after, z, rfl⟩
    · obtain ⟨-, hxy⟩ := append_inj' heq rfl
      obtain rfl := singleton_inj.mp hxy
      exact .inl ⟨hmade, ht⟩
    rw [concat_eq_append, ← cons_append, ← append_assoc] at heq
    obtain ⟨rfl, hxz⟩ := append_inj' heq rfl
    obtain rfl := singleton_inj.mp hxz
    refine .inr ⟨⟨before, y, after, rfl, hmade, ht, fun w hw => hkept w ?_⟩, hkept x ?_⟩
    · rw [concat_eq_append]
      exact mem_append_left _ hw
    rw [concat_eq_append]
    exact mem_append_right _ (mem_singleton_self x)
  rintro (⟨hmade, ht⟩ | ⟨⟨before, y, after, rfl, hmade, ht, hkept⟩, hx⟩)
  · exact ⟨h, x, [], rfl, hmade, ht, fun y hy => absurd hy not_mem_nil⟩
  refine ⟨before, y, after ++ [x], by simp, hmade, ht, fun w hw => ?_⟩
  rcases mem_append.mp hw with hw | hw
  · exact hkept w hw
  rw [mem_singleton.mp hw]
  exact hx

section
variable {s₀ s : State} {es : List Event}

lemma outstanding_contents (hinit : machine.init s₀) (hrun : machine.Run s₀ es s) (t : Nat) :
  Outstanding t (machine.history s₀ es) (s.caps t).contents := by
  refine Machine.Run.induction_snoc
    (P := fun es s => Outstanding t (machine.history s₀ es) (s.caps t).contents) ?_ ?_ hrun
  · have hempty : s₀.caps t = fun _ => none := by
      simp [State.caps, hinit.1, SecurityManager.new, CapabilitySet.new]
    have hnone : (s₀.caps t).contents = 0 := by
      apply Multiset.eq_zero_of_forall_notMem
      intro c hc
      obtain ⟨i, hi⟩ := Slots.mem_contents.mp hc
      rw [hempty] at hi
      cases hi
    rw [hnone]
    exact .start
  intro es s e hrun ih _
  have hinv := inv_of_reachable ⟨s₀, es, hinit, hrun⟩
  rw [hrun.history_snoc]
  show Outstanding t _ ((react s e).caps t).contents
  cases (react_effect hinv e).1 with
  | kept hmade hrevoked hcaps =>
    rw [hcaps]
    exact .other ih (by simp [hmade]) (by simp [hrevoked])
  | made c slot hmade hrevoked _ _ hfree hcaps =>
    rw [hcaps, State.fill]
    by_cases ht : c.taskId = t
    · subst ht
      rw [update_self, Slots.contents_fill hfree]
      exact .made ih hmade rfl
    rw [update_of_ne (Ne.symm ht)]
    exact .other ih (by simpa [hmade] using ht) (by simp [hrevoked])
  | revoked t' c slot hmade hrevoked hused hcaps =>
    rw [hcaps, State.clear]
    by_cases ht : t' = t
    · subst ht
      rw [update_self]
      rw [← Slots.contents_clear hused] at ih
      exact .revoked ih hrevoked
    rw [update_of_ne (Ne.symm ht)]
    exact .other ih (by simp [hmade]) (by simpa [hrevoked] using ht)

structure Numbered (s₀ s : State) (n : Nat) : Prop where
  next : s.nextCapId = (s₀.nextCapId + n) % usizeBound
  below : ∀ t slot c, s.caps t slot = some c → c.id < s₀.nextCapId + n
  distinct : ∀ t slot c t' slot' c', s.caps t slot = some c → s.caps t' slot' = some c' →
    c.id = c'.id → t = t' ∧ slot = slot'

variable {d : Capability} {slot i : Fin maxCapabilitiesPerTask} {t : Nat} {c : Capability}

lemma fill_some (h : s.fill c slot t i = some d) :
  (t = c.taskId ∧ i = slot ∧ d = c) ∨ s.caps t i = some d := by
  by_cases ht : t = c.taskId
  · subst ht
    rw [State.fill, update_self] at h
    by_cases hi : i = slot
    · subst hi
      rw [update_self] at h
      exact .inl ⟨rfl, rfl, (some.inj h).symm⟩
    rw [update_of_ne hi] at h
    exact .inr h
  rw [State.fill, update_of_ne ht] at h
  exact .inr h

lemma fill_self (s : State) (c : Capability) (slot : Fin maxCapabilitiesPerTask) :
  s.fill c slot c.taskId slot = some c := by
  rw [State.fill, update_self, update_self]

lemma fill_of_some (hfree : s.caps c.taskId slot = none) (h : s.caps t i = some d) :
  s.fill c slot t i = some d := by
  by_cases ht : t = c.taskId
  · subst ht
    have hi : i ≠ slot := by
      rintro rfl
      rw [hfree] at h
      cases h
    rwa [State.fill, update_self, update_of_ne hi]
  · rwa [State.fill, update_of_ne ht]

lemma clear_some {t' : Nat} :
  s.clear t' slot t i = some d ↔ s.caps t i = some d ∧ ¬ (t = t' ∧ i = slot) := by
  by_cases ht : t = t'
  · subst ht
    rw [State.clear, update_self]
    by_cases hi : i = slot
    · subst hi
      simp
    · simp [hi]
  rw [State.clear, update_of_ne ht]
  simp [ht]

/-- One more call: its id is new, so distinct ids stay distinct. -/
lemma Numbered.step {n : Nat} (h : Numbered s₀ s n) {e : Event} (heff : Effect s e)
  (hroom : s₀.nextCapId + (n + (made s e).toList.length) ≤ usizeBound) :
  Numbered s₀ (react s e) (n + (made s e).toList.length) := by
  cases heff with
  | kept hmade _ hcaps hnext =>
    rw [hmade]
    exact ⟨hnext.trans h.next, hcaps ▸ h.below, hcaps ▸ h.distinct⟩
  | revoked t c slot hmade _ _ hcaps hnext =>
    rw [hmade]
    refine ⟨hnext.trans h.next, fun t i d hd => ?_, fun t i d t' i' d' hd hd' => ?_⟩
    · rw [hcaps] at hd
      exact h.below t i d (clear_some.mp hd).1
    rw [hcaps] at hd hd'
    exact h.distinct t i d t' i' d' (clear_some.mp hd).1 (clear_some.mp hd').1
  | made c slot hmade _ hid _ _ hcaps hnext =>
    rw [hmade] at hroom ⊢
    simp only [toList_some, length_singleton] at hroom ⊢
    have hnew : c.id = s₀.nextCapId + n := by
      rw [hid, h.next, Nat.mod_eq_of_lt (by omega)]
    refine ⟨?_, fun t i d hd => ?_, fun t i d t' i' d' hd hd' hsame => ?_⟩
    · rw [hnext, ← hid, hnew, Nat.add_assoc]
    · rw [hcaps] at hd
      rcases fill_some hd with ⟨-, -, rfl⟩ | hold
      · omega
      have := h.below t i d hold
      omega
    rw [hcaps] at hd hd'
    -- An id that was there before is smaller than the new one.
    rcases fill_some hd with ⟨rfl, rfl, rfl⟩ | hold
    · rcases fill_some hd' with ⟨rfl, rfl, -⟩ | hold'
      · exact ⟨rfl, rfl⟩
      have := h.below t' i' d' hold'
      omega
    rcases fill_some hd' with ⟨rfl, rfl, rfl⟩ | hold'
    · have := h.below t i d hold
      omega
    · exact h.distinct t i d t' i' d' hold hold' hsame

lemma holds_step {n : Nat} (h : Numbered s₀ s n) {e : Event} (heff : Effect s e) (t : Nat)
  (c : Capability) : (∃ i, (react s e).caps t i = some c) ↔ (made s e = some c ∧ c.taskId = t) ∨
      ((∃ i, s.caps t i = some c) ∧ revoked s e ≠ some (t, c.id)) := by
  cases heff with
  | kept hmade hrevoked hcaps =>
    rw [hcaps, hmade, hrevoked]
    simp
  | made d slot hmade hrevoked _ _ hfree hcaps =>
    rw [hcaps, hmade, hrevoked]
    constructor
    · rintro ⟨i, hi⟩
      rcases fill_some hi with ⟨ht, -, hc⟩ | hold
      · subst hc
        exact .inl ⟨rfl, ht.symm⟩
      · exact .inr ⟨⟨i, hold⟩, by simp⟩
    rintro (⟨hc, ht⟩ | ⟨⟨i, hi⟩, -⟩)
    · obtain rfl := some.inj hc
      subst ht
      exact ⟨slot, fill_self s d slot⟩
    · exact ⟨i, fill_of_some hfree hi⟩
  | revoked t' d slot hmade hrevoked hused hcaps =>
    rw [hcaps, hmade, hrevoked]
    constructor
    · rintro ⟨i, hi⟩
      obtain ⟨hold, hother⟩ := clear_some.mp hi
      refine .inr ⟨⟨i, hold⟩, fun heq => hother ?_⟩
      obtain ⟨rfl, hid⟩ := Prod.mk.inj (some.inj heq)
      exact h.distinct t' i c t' slot d hold hused hid.symm
    rintro (⟨hc, -⟩ | ⟨⟨i, hi⟩, hne⟩)
    · cases hc
    refine ⟨i, clear_some.mpr ⟨hi, ?_⟩⟩
    rintro ⟨rfl, rfl⟩
    rw [hi] at hused
    obtain rfl := some.inj hused
    exact hne rfl

lemma numbered_of_run (hinit : machine.init s₀) (hrun : machine.Run s₀ es s) :
  s₀.nextCapId + (allMade (machine.history s₀ es)).length ≤ usizeBound →
    Numbered s₀ s (allMade (machine.history s₀ es)).length ∧
      ∀ t c, (∃ i, s.caps t i = some c) ↔ MadeAndKept (machine.history s₀ es) t c := by
  refine Machine.Run.induction_snoc (P := fun es s =>
    s₀.nextCapId + (allMade (machine.history s₀ es)).length ≤ usizeBound →
      Numbered s₀ s (allMade (machine.history s₀ es)).length ∧
        ∀ t c, (∃ i, s.caps t i = some c) ↔ MadeAndKept (machine.history s₀ es) t c) ?_ ?_ hrun
  · intro _
    have hempty : ∀ t i, s₀.caps t i = none := by
      simp [State.caps, hinit.1, SecurityManager.new, CapabilitySet.new]
    refine ⟨⟨(Nat.mod_eq_of_lt hinit.2).symm, ?_, ?_⟩, fun t c => ?_⟩
    · intro t i c hc
      rw [hempty] at hc
      cases hc
    · intro t i c t' i' c' hc
      rw [hempty] at hc
      cases hc
    refine iff_of_false ?_ ?_
    · rintro ⟨i, hi⟩
      rw [hempty] at hi
      cases hi
    rintro ⟨before, x, after, hnil, -⟩
    exact absurd hnil (by simp [Machine.history])
  intro es s e hrun ih _
  have hinv := inv_of_reachable ⟨s₀, es, hinit, hrun⟩
  have heff := (react_effect hinv e).1
  rw [hrun.history_snoc, allMade_snoc, length_append]
  intro hroom
  obtain ⟨hnum, hheld⟩ := ih (by omega)
  refine ⟨hnum.step heff hroom, fun t c => ?_⟩
  rw [madeAndKept_snoc, ← hheld]
  exact holds_step hnum heff t c

lemma hasCapability_iff (h : Inv s) (t : Nat) (ty : ResourceType) (rid : Nat) (required : Rights) :
  hasCapability s t ty rid required = true ↔
    ∃ i c, s.caps t i = some c ∧ c.covers ty rid required = true := by
  have hpos : ((s.caps t).position fun cap => cap.any fun c => c.covers ty rid required).isSome ↔
      ∃ i c, s.caps t i = some c ∧ c.covers ty rid required = true := by
    constructor
    · intro hsome
      obtain ⟨i, hi⟩ := isSome_iff_exists.mp hsome
      have htest := Slots.position_some hi
      cases hc : s.caps t i with
      | none =>
        rw [hc] at htest
        cases htest
      | some c =>
        rw [hc] at htest
        exact ⟨i, c, hc, htest⟩
    rintro ⟨i, c, hc, hcovers⟩
    rw [isSome_iff_ne_none]
    intro hnone
    have htest := Slots.position_none hnone i
    rw [hc, any_some, hcovers] at htest
    cases htest
  rw [hasCapability]
  by_cases ht : maxTasks ≤ t
  · rw [if_pos ht]
    refine iff_of_false Bool.false_ne_true ?_
    rintro ⟨i, c, hc, -⟩
    rw [h.range t ht] at hc
    cases hc
  rw [if_neg ht]
  exact hpos

/-- After every run of calls, `has_capability` tells what was made and not revoked since, the slot
search of `grant` always succeeds, and ids are distinct until the counter of ids wraps. -/
theorem tables_reflect_history (hinit : machine.init s₀) (hrun : machine.Run s₀ es s) :
  (∀ t, ∃ m, Outstanding t (machine.history s₀ es) m ∧ ∀ ty rid required,
    hasCapability s t ty rid required = true ↔ ∃ c ∈ m, c.covers ty rid required = true) ∧
  (∀ t, (s.manager.capabilities t).count = (s.caps t).occupied) ∧
  (∀ t, (s.manager.capabilities t).count < maxCapabilitiesPerTask →
    ((s.caps t).position Option.isNone).isSome) ∧
  (s₀.nextCapId + (allMade (machine.history s₀ es)).length ≤ usizeBound →
    (∀ t ty rid required, hasCapability s t ty rid required = true ↔
      ∃ c, MadeAndKept (machine.history s₀ es) t c ∧ c.covers ty rid required = true) ∧
    ∀ t i c t' i' c', s.caps t i = some c → s.caps t' i' = some c' → c.id = c'.id →
      t = t' ∧ i = i') := by
  have hinv := inv_of_reachable ⟨s₀, es, hinit, hrun⟩
  refine ⟨fun t => ⟨_, outstanding_contents hinit hrun t, fun ty rid required => ?_⟩, hinv.count,
    fun t hcount => ?_, fun hroom => ?_⟩
  · rw [hasCapability_iff hinv]
    simp only [Slots.mem_contents]
    rw [exists_comm]
    simp only [exists_and_right]
  · obtain ⟨slot, hslot, -⟩ := hinv.free hcount
    rw [hslot]
    rfl
  obtain ⟨hnum, hheld⟩ := numbered_of_run hinit hrun hroom
  refine ⟨fun t ty rid required => ?_, hnum.distinct⟩
  rw [hasCapability_iff hinv, exists_comm]
  simp only [exists_and_right, hheld]

end

def newState : State := ⟨SecurityManager.new, 0⟩

lemma newState_init : machine.init newState := ⟨rfl, by decide⟩

def delegateEvents : List Event :=
  [.init, .grant 1 .device 7 0b1011, .delegate 1 2 0 0b0001, .revoke 1 0]

theorem tables_reflect_history_delegated :
  ∃ c, MadeAndKept (machine.history newState delegateEvents) 2 c ∧
    c.covers .device 7 0b0001 = true :=
  ((tables_reflect_history newState_init (Machine.run_foldl
      (fun _ _ => trivial) newState delegateEvents)).2.2.2
    (by decide +kernel)).1 2 .device 7 0b0001 |>.mp (by decide +kernel)

end Aeos.Security
