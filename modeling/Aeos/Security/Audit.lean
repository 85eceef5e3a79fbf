/-
# The audit log

`AuditLog::recent` returns one slice of the ring, from the oldest entry on.
-/

import Aeos.Security.Model

namespace Aeos.Security

open List

abbrev Recorded := AuditEventType × Nat × Nat

def Recorded.entry (r : Recorded) : AuditEntry := ⟨r.1, r.2.1, r.2.2, 0⟩

namespace AuditLog

def recent (log : AuditLog) (count : Nat) : Option (List AuditEntry) :=
  let available := min (min count log.totalEntries) 256
  let start := if log.totalEntries > 256 then log.writeIdx else 0
  if start + available ≤ 256 then some ((List.range' start available).map log.entries) else none

def recordAll (rs : List Recorded) : AuditLog :=
  rs.foldl (fun log r => log.record r.1 r.2.1 r.2.2) .new

/-- The last `min(count, total_entries, 256)` entries are shown, in their order. -/
def Shows (rs : List Recorded) (count : Nat) : Prop :=
  let shown := min (min count (recordAll rs).totalEntries) 256
  (recordAll rs).recent count = some ((rs.map Recorded.entry).drop (rs.length - shown))

lemma recordAll_snoc (rs : List Recorded) (r : Recorded) :
  recordAll (rs ++ [r]) = (recordAll rs).record r.1 r.2.1 r.2.2 := by
  rw [recordAll, foldl_append]
  rfl

lemma recordAll_spec (rs : List Recorded) : (recordAll rs).writeIdx = rs.length % 256 ∧
  (recordAll rs).totalEntries = rs.length % usizeBound ∧
  ∀ i (hi : i < rs.length), rs.length ≤ i + 256 →
    (recordAll rs).entries (i % 256) = rs[i].entry := by
  induction rs using List.reverseRecOn with
  | nil => exact ⟨rfl, rfl, fun i hi => absurd hi (Nat.not_lt_zero i)⟩
  | append_singleton rs r ih =>
    obtain ⟨hwrite, htotal, hcells⟩ := ih
    simp only [recordAll_snoc, AuditLog.record, length_append, length_singleton]
    refine ⟨by rw [hwrite, Nat.mod_add_mod], by rw [htotal, Nat.mod_add_mod], fun i hi hlast => ?_⟩
    rw [hwrite]
    by_cases hnew : i = rs.length
    · subst hnew
      rw [Function.update_self, getElem_concat_length rfl]
      rfl
    have hold : i < rs.length := by omega
    rw [Function.update_of_ne (by omega), hcells i hold (by omega), getElem_append_left hold]

lemma whole_rings {n total : Nat} (ht : n % usizeBound = total) : (n - total) % 256 = 0 := by
  have hdiv := ht ▸ Nat.dvd_sub_mod n
  exact Nat.mod_eq_zero_of_dvd (Nat.dvd_trans (by decide) hdiv)

lemma recent_recordAll {rs : List Recorded} {count total oldest shown : Nat}
  (ht : rs.length % usizeBound = total) (ho : rs.length - min total 256 = oldest)
  (hs : min (min count total) 256 = shown) : (recordAll rs).recent count =
    if oldest % 256 + shown ≤ 256 then some (((rs.map Recorded.entry).drop oldest).take shown)
    else none := by
  obtain ⟨hwrite, htotal, hcells⟩ := recordAll_spec rs
  rw [ht] at htotal
  have hle := ht ▸ Nat.mod_le _ _
  have hwhole := whole_rings ht
  have hstart : (if (recordAll rs).totalEntries > 256 then (recordAll rs).writeIdx else 0) =
      oldest % 256 := by
    split_ifs <;> omega
  rw [recent, hstart, htotal, hs]
  by_cases hfits : oldest % 256 + shown ≤ 256
  · rw [if_pos hfits, if_pos hfits]
    refine congrArg some (ext_getElem ?_ fun j hj _ => ?_)
    · simp only [length_map, length_range', length_take, length_drop]
      omega
    rw [length_map, length_range'] at hj
    have hcell := hcells (oldest + j) (by omega) (by omega)
    have hindex : (oldest + j) % 256 = oldest % 256 + j := by omega
    simp only [getElem_map, getElem_range', getElem_take, getElem_drop]
    rw [Nat.one_mul, ← hindex, hcell]
  · rw [if_neg hfits, if_neg hfits]

def numbered (n : Nat) : List Recorded := (List.range n).map fun i => (.taskCreated, i, 0)

/-- None is asked for or there; or all of at most 256 are asked for; or a whole number of rings
has been recorded and a whole ring is asked for. -/
def WholeSlice (total count : Nat) : Prop :=
  count = 0 ∨ total = 0 ∨ total ≤ 256 ∧ total ≤ count ∨
    256 < total ∧ total % 256 = 0 ∧ 256 ≤ count

/-- For `n` events and a count, the latest events are shown whatever they are exactly if
the slice from the oldest one on is all that should be shown. -/
theorem audit_log_shows_latest_iff (n count : Nat) :
  (∀ rs : List Recorded, rs.length = n → Shows rs count) ↔ WholeSlice (n % usizeBound) count := by
  obtain ⟨total, ht⟩ : ∃ total, n % usizeBound = total := ⟨_, rfl⟩
  obtain ⟨oldest, ho⟩ : ∃ oldest, n - min total 256 = oldest := ⟨_, rfl⟩
  obtain ⟨shown, hs⟩ : ∃ shown, min (min count total) 256 = shown := ⟨_, rfl⟩
  have hwhole := whole_rings ht
  have hle : total ≤ n := ht ▸ Nat.mod_le _ _
  have hshows : ∀ rs : List Recorded, rs.length = n → (Shows rs count ↔
      (if oldest % 256 + shown ≤ 256 then
        some (((rs.map Recorded.entry).drop oldest).take shown) else none) =
      some ((rs.map Recorded.entry).drop (n - shown))) := by
    rintro rs rfl
    rw [Shows, recent_recordAll ht ho hs, (recordAll_spec rs).2.1, ht, hs]
  rw [ht, WholeSlice]
  constructor
  · intro hall
    have hnumbered := (hshows (numbered n) (by simp [numbered])).mp (hall _ (by simp [numbered]))
    split_ifs at hnumbered with hfits
    -- The first event that is shown tells the two slices apart.
    have hfirst := congrArg List.head? (Option.some.inj hnumbered)
    by_cases hsome : shown = 0 ∨ shown = min total 256
    · omega
    exfalso
    have hlt : oldest < n ∧ n - shown < n := by omega
    simp [numbered, List.head?_take, List.head?_drop, hlt, Recorded.entry] at hfirst
    omega
  intro hcond rs hrs
  rw [hshows rs hrs, if_pos (by omega)]
  refine congrArg some ?_
  by_cases hzero : shown = 0
  · rw [hzero, take_zero, Nat.sub_zero, drop_of_length_le (by simp [hrs])]
  rw [take_of_length_le (by simp [hrs]; omega)]
  congr 1
  omega

/-- The latest of two events is asked for and the first is shown; after 257 events the
whole log cannot be shown at all. -/
theorem recent_shows_oldest : (recordAll [(.accessDenied, 1, 0), (.taskCreated, 2, 0)]).recent 1 =
    some [⟨.accessDenied, 1, 0, 0⟩] ∧
  (recordAll (List.replicate 257 (.taskCreated, 2, 0))).recent 256 = none := by
  refine ⟨rfl, ?_⟩
  have hlength : (List.replicate 257 ((.taskCreated, 2, 0) : Recorded)).length = 257 :=
    length_replicate
  rw [recent_recordAll (by rw [hlength]) rfl rfl, hlength]
  exact if_neg (by decide)

end AuditLog
end Aeos.Security
