/-
# Delegation

Authority only shrinks on its way from task to task.
-/

import Aeos.Security.History

namespace Aeos.Security

open Lib List Option

lemma Rights.contains_refl (r : Rights) : r.contains r = true := by
  simp [Rights.contains]

lemma Rights.contains_trans {a b c : Rights} (hab : a.contains b = true)
  (hbc : b.contains c = true) : a.contains c = true := by
  simp only [Rights.contains, beq_iff_eq] at *
  calc a &&& c = a &&& (b &&& c) := by rw [hbc]
    _ = (a &&& b) &&& c := (BitVec.and_assoc a b c).symm
    _ = c := by rw [hab, hbc]

lemma Rights.contains_and (a b : Rights) : a.contains (a &&& b) = true := by
  simp only [Rights.contains, beq_iff_eq, ← BitVec.and_assoc, BitVec.and_self]

/-- `Lineage h o c`: the calls of `h` granted `o` and delegated it on, step by step, to
`c`. -/
inductive Lineage : History → Capability → Capability → Prop
  | granted {before after : History} {s : State} {t : Nat} {ty : ResourceType} {rid : Nat}
      {rights : Rights} {c : Capability} :
      made s (.grant t ty rid rights) = some c →
      Lineage (before ++ (s, .grant t ty rid rights) :: after) c c
  /-- The source was in the table of the delegating task, with GRANT. -/
  | delegated {before after : History} {s : State} {fromTask toTask : Nat} {new : Rights}
      {slot : Fin maxCapabilitiesPerTask} {o c d : Capability} :
      Lineage before o c → s.caps fromTask slot = some c →
      c.rights.contains Rights.grant = true →
      made s (.delegate fromTask toTask c.id new) = some d →
      d.resourceType = c.resourceType → d.resourceId = c.resourceId →
      d.rights = c.rights &&& new →
      Lineage (before ++ (s, .delegate fromTask toTask c.id new) :: after) o d

variable {c : Capability} {h : History}

lemma Lineage.snoc {o : Capability} (hline : Lineage h o c)
  (x : State × Event) : Lineage (h ++ [x]) o c := by
  cases hline with
  | granted hmade =>
    rw [append_assoc, cons_append]
    exact .granted hmade
  | delegated hsource hslot hgrant hmade hty hrid hrights =>
    rw [append_assoc, cons_append]
    exact .delegated hsource hslot hgrant hmade hty hrid hrights

lemma Lineage.shrinks {o : Capability} (hline : Lineage h o c) :
  c.resourceType = o.resourceType ∧ c.resourceId = o.resourceId ∧
    o.rights.contains c.rights = true := by
  induction hline with
  | granted => exact ⟨rfl, rfl, Rights.contains_refl _⟩
  | delegated _ _ _ _ hty hrid hrights ih =>
    obtain ⟨ihty, ihrid, ihrights⟩ := ih
    refine ⟨hty.trans ihty, hrid.trans ihrid, Rights.contains_trans ihrights ?_⟩
    rw [hrights]
    exact Rights.contains_and _ _

variable {s : State} {new : Rights} {d : Capability}

/-- A delegation that makes a capability has a source with GRANT. -/
lemma made_delegate {fromTask toTask id : Nat}
  (hmade : made s (.delegate fromTask toTask id new) = some d) :
  ∃ slot c, s.caps fromTask slot = some c ∧ c.id = id ∧
    c.rights.contains Rights.grant = true ∧ d.resourceType = c.resourceType ∧
    d.resourceId = c.resourceId ∧ d.rights = c.rights &&& new := by
  rcases delegate_cases s fromTask toTask id new with ⟨err, heq⟩ | ⟨c, hsource, hgrant, heq⟩
  · simp only [made, heq] at hmade
    cases hmade
  obtain ⟨⟨slot, hslot⟩, hid⟩ := source_some hsource
  simp only [made, hsource, map_some] at hmade
  split at hmade
  · obtain rfl := some.inj hmade
    exact ⟨slot, c, hslot, hid, hgrant, rfl, rfl, rfl⟩
  · cases hmade

lemma lineage_made {e : Event}
  (hlines : ∀ t i c, s.caps t i = some c → ∃ o, Lineage h o c) (hmade : made s e = some d) :
  ∃ o, Lineage (h ++ [(s, e)]) o d := by
  cases e with
  | init | revoke => cases hmade
  | grant t ty rid rights => exact ⟨d, .granted hmade⟩
  | delegate fromTask toTask id new =>
    obtain ⟨slot, c, hslot, rfl, hgrant, hty, hrid, hrights⟩ := made_delegate hmade
    obtain ⟨o, hline⟩ := hlines fromTask slot c hslot
    exact ⟨o, .delegated hline hslot hgrant hmade hty hrid hrights⟩

section
variable {s₀ s : State} {es : List Event}

lemma lineage_of_run (hinit : machine.init s₀) (hrun : machine.Run s₀ es s) :
  ∀ t i c, s.caps t i = some c → ∃ o, Lineage (machine.history s₀ es) o c := by
  refine Machine.Run.induction_snoc (P := fun es s =>
    ∀ t i c, s.caps t i = some c → ∃ o, Lineage (machine.history s₀ es) o c) ?_ ?_ hrun
  · intro t i c hc
    rw [(inv_of_init hinit).empty (by rw [hinit.1]; rfl)] at hc
    cases hc
  intro es s e hrun ih _ t i c hc
  have hinv := inv_of_reachable ⟨s₀, es, hinit, hrun⟩
  rw [hrun.history_snoc]
  have hold : s.caps t i = some c → ∃ o, Lineage (machine.history s₀ es ++ [(s, e)]) o c := by
    intro hc
    obtain ⟨o, hline⟩ := ih t i c hc
    exact ⟨o, hline.snoc _⟩
  change (react s e).caps t i = some c at hc
  cases (react_effect hinv e).1 with
  | kept _ _ hcaps =>
    rw [hcaps] at hc
    exact hold hc
  | made d slot hmade _ _ _ _ hcaps =>
    rw [hcaps] at hc
    rcases fill_some hc with ⟨-, -, rfl⟩ | hc
    · exact lineage_made ih hmade
    · exact hold hc
  | revoked t' d slot _ _ _ hcaps =>
    rw [hcaps] at hc
    exact hold (clear_some.mp hc).1

/-- After every run of calls, a capability has at most the rights of one granted on its resource,
from which a chain of delegations leads to it; and a delegation is made from a capability with
GRANT. -/
theorem delegation_never_amplifies (hinit : machine.init s₀) (hrun : machine.Run s₀ es s) :
  (∀ t i c, s.caps t i = some c → ∃ o, Lineage (machine.history s₀ es) o c ∧
    c.resourceType = o.resourceType ∧ c.resourceId = o.resourceId ∧
    o.rights.contains c.rights = true) ∧
  ∀ r fromTask toTask id new d,
    (r, .delegate fromTask toTask id new) ∈ machine.history s₀ es →
    made r (.delegate fromTask toTask id new) = some d →
    ∃ slot c, r.caps fromTask slot = some c ∧ c.id = id ∧
      c.rights.contains Rights.grant = true ∧ d.resourceType = c.resourceType ∧
      d.resourceId = c.resourceId ∧ c.rights.contains d.rights = true := by
  refine ⟨fun t i c hc => ?_, fun r fromTask toTask id new d _ hmade => ?_⟩
  · obtain ⟨o, hline⟩ := lineage_of_run hinit hrun t i c hc
    exact ⟨o, hline, hline.shrinks⟩
  obtain ⟨slot, c, hslot, hid, hgrant, hty, hrid, hrights⟩ := made_delegate hmade
  refine ⟨slot, c, hslot, hid, hgrant, hty, hrid, ?_⟩
  rw [hrights]
  exact Rights.contains_and _ _

end

theorem delegation_never_amplifies_delegated :
  ∃ o, Lineage (machine.history newState delegateEvents) o ⟨1, 2, .device, 7, 0b0001⟩ ∧
    o.rights.contains 0b0001 = true := by
  obtain ⟨o, hline, -, -, hrights⟩ :=
    (delegation_never_amplifies newState_init (Machine.run_foldl
      (fun _ _ => trivial) newState delegateEvents)).1 2
      ⟨0, by decide⟩ ⟨1, 2, .device, 7, 0b0001⟩ (by decide +kernel)
  exact ⟨o, hline, hrights⟩

/-! ## The lookup -/

/-- A capability the task holds, by its id, and may delegate. -/
def Delegable (s : State) (t id : Nat) (c : Capability) : Prop :=
  (∃ i, s.caps t i = some c) ∧ c.id = id ∧ c.rights.contains Rights.grant = true

def Room (s : State) (t : Nat) : Prop := ∃ i, s.caps t i = none

/-- A delegation succeeds when it can, and makes what it should. -/
structure Delegates (s : State) (fromTask toTask id : Nat) (new : Rights) : Prop where
  succeeds : (∃ made, (delegate s fromTask toTask id new).1 = .ok made) ↔
    fromTask < maxTasks ∧ toTask < maxTasks ∧ (∃ c, Delegable s fromTask id c) ∧ Room s toTask
  made : ∀ made, (delegate s fromTask toTask id new).1 = .ok made →
    ∃ c i, Delegable s fromTask id c ∧ s.caps toTask i = none ∧
      (delegate s fromTask toTask id new).2.caps toTask i =
        some ⟨made, toTask, c.resourceType, c.resourceId, c.rights &&& new⟩

lemma source_eq_some_iff {t id : Nat} : source s t id = some c ↔
    ∃ i, s.caps t i = some c ∧ c.id = id ∧ ∀ j < i, s.caps t j = none := by
  simp only [source, filter_eq_some_iff, bind_eq_some_iff, Slots.position,
    Fin.find?_eq_some_iff, beq_iff_eq]
  constructor
  · rintro ⟨⟨i, ⟨-, hbefore⟩, hi⟩, hid⟩
    exact ⟨i, hi, hid, fun j hj => not_isSome_iff_eq_none.mp (by simpa using hbefore j hj)⟩
  rintro ⟨i, hi, hid, hbefore⟩
  exact ⟨⟨i, ⟨by simp [hi], fun j hj => by simp [hbefore j hj]⟩, hi⟩, hid⟩

lemma delegate_of_source (h : Inv s) {fromTask toTask id : Nat}
  (hfrom : fromTask < maxTasks) (hto : toTask < maxTasks)
  (hsource : source s fromTask id = some c) (hgrant : c.rights.contains Rights.grant = true)
  (hroom : Room s toTask) (new : Rights) :
  ∃ made, (delegate s fromTask toTask id new).1 = .ok made := by
  obtain ⟨⟨slot, hslot⟩, -⟩ := source_some hsource
  have hinit : s.manager.initialized = true := by
    by_contra hnot
    rw [h.empty (Bool.eq_false_of_not_eq_true hnot)] at hslot
    cases hslot
  obtain ⟨i, hi⟩ := hroom
  have hcount : (s.manager.capabilities toTask).count < maxCapabilitiesPerTask := by
    rw [h.count]
    exact Slots.occupied_lt hi
  obtain ⟨free, hfree, -⟩ := h.free hcount
  rw [State.caps] at hfree
  refine ⟨s.nextCapId, ?_⟩
  simp [delegate, grant, hinit, hsource, hgrant, hfree, not_le.mpr hfrom, not_le.mpr hto,
    not_le.mpr hcount, Capability.new]

lemma delegate_ok (h : Inv s) {fromTask toTask id made : Nat}
  (hok : (delegate s fromTask toTask id new).1 = .ok made) :
  ∃ c i, source s fromTask id = some c ∧ c.rights.contains Rights.grant = true ∧
    toTask < maxTasks ∧ s.caps toTask i = none ∧
    (delegate s fromTask toTask id new).2.caps toTask i =
      some ⟨made, toTask, c.resourceType, c.resourceId, c.rights &&& new⟩ := by
  rcases delegate_cases s fromTask toTask id new with ⟨err, heq⟩ | ⟨c, hsource, hgrant, heq⟩
  · rw [heq] at hok
    cases hok
  rw [heq] at hok ⊢
  rcases grant_cases h toTask c.resourceType c.resourceId (c.rights &&& new) with
    ⟨err, hcall⟩ | ⟨i, _, hto, hfree, hcall⟩
  · rw [hcall] at hok
    cases hok
  rw [hcall] at hok ⊢
  cases hok
  refine ⟨c, i, hsource, hgrant, hto, hfree, ?_⟩
  rw [caps_granted]
  exact fill_self _ _ _

/-- In every state reached, a delegation works exactly if, where it should succeed, the
first capability in the table of the delegating task has the id and GRANT. -/
theorem delegation_works_iff {s : State} (hs : machine.Reachable s) (fromTask toTask id : Nat)
  (new : Rights) :
  Delegates s fromTask toTask id new ↔
    (fromTask < maxTasks → toTask < maxTasks → (∃ c, Delegable s fromTask id c) →
      Room s toTask → ∃ i c, (∀ j < i, s.caps fromTask j = none) ∧
        s.caps fromTask i = some c ∧ c.id = id ∧ c.rights.contains Rights.grant = true) := by
  have h := inv_of_reachable hs
  constructor
  · intro hworks hfrom hto hheld hroom
    obtain ⟨made, hok⟩ := hworks.succeeds.mpr ⟨hfrom, hto, hheld, hroom⟩
    obtain ⟨c, -, hsource, hgrant, -⟩ := delegate_ok h hok
    obtain ⟨i, hi, hid, hbefore⟩ := source_eq_some_iff.mp hsource
    exact ⟨i, c, hbefore, hi, hid, hgrant⟩
  intro hfirst
  refine ⟨⟨?_, ?_⟩, fun made hok => ?_⟩
  · rintro ⟨made, hok⟩
    obtain ⟨c, i, hsource, hgrant, hto, hfree, -⟩ := delegate_ok h hok
    obtain ⟨⟨slot, hslot⟩, hid⟩ := source_some hsource
    have hfrom : fromTask < maxTasks := by
      by_contra hlarge
      rw [h.range _ (not_lt.mp hlarge)] at hslot
      cases hslot
    exact ⟨hfrom, hto, ⟨c, ⟨slot, hslot⟩, hid, hgrant⟩, i, hfree⟩
  · rintro ⟨hfrom, hto, hheld, hroom⟩
    obtain ⟨i, c, hbefore, hi, hid, hgrant⟩ := hfirst hfrom hto hheld hroom
    exact delegate_of_source h hfrom hto (source_eq_some_iff.mpr ⟨i, hi, hid, hbefore⟩) hgrant
      hroom new
  obtain ⟨c, i, hsource, hgrant, -, hfree, hnew⟩ := delegate_ok h hok
  obtain ⟨hslot, hid⟩ := source_some hsource
  exact ⟨c, i, ⟨hslot, hid, hgrant⟩, hfree, hnew⟩

def grantEvents : List Event := [.init, .grant 1 .device 7 0b1011, .grant 1 .device 8 0b1011]

theorem delegation_works_first : Delegates (grantEvents.foldl react newState) 1 2 0 0b0001 :=
  (delegation_works_iff ⟨newState, grantEvents, newState_init,
    Machine.run_foldl (fun _ _ => trivial) newState grantEvents⟩ 1 2 0 0b0001).mpr fun _ _ _ _ =>
    ⟨⟨0, by decide⟩, ⟨0, 1, .device, 7, 0b1011⟩, fun j hj => absurd hj (Nat.not_lt_zero _),
      by decide +kernel, rfl, by decide⟩

/-- The second capability cannot be delegated. -/
theorem second_capability_not_delegated : (grantEvents.foldl react newState).caps 1 ⟨1, by decide⟩ =
    some ⟨1, 1, .device, 8, 0b1011⟩ ∧
  (grantEvents.foldl react newState).caps 2 ⟨0, by decide⟩ = none ∧
  (delegate (grantEvents.foldl react newState) 1 2 1 0b0001).1 =
    .error .capabilityNotFound := by
  refine ⟨?_, ?_, ?_⟩ <;> rfl

end Aeos.Security
