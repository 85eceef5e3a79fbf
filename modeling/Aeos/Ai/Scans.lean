/-
# What a scan of the debugger records

`add_issue` leaves the severity of an issue that is already in the table, and an issue
that was fixed keeps its place.
-/

import Aeos.Ai.Core
import Aeos.Lib.Machine
import Aeos.Lib.Ring

namespace Aeos.Ai

open Lib List

namespace Debug

def heapCheck (r : Readings) : List (IssueType × Nat) :=
  if percent r.heapUsed r.heapCap > 90 then [(.memLeak, 2)]
  else if percent r.heapUsed r.heapCap > 75 then [(.memLeak, 1)]
  else []

def errorCheck (r : Readings) : List (IssueType × Nat) :=
  if r.inferences > 10 then
    if u32 (r.errors * 100) / r.inferences > 20 then [(.highErrors, 2)]
    else if u32 (r.errors * 100) / r.inferences > 10 then [(.highErrors, 1)]
    else []
  else []

/-- The checks of `ai_debug_scan` that fire, and the severity of each. -/
def fired (r : Readings) : List (IssueType × Nat) :=
  heapCheck r ++ errorCheck r ++ (if r.hz < 50 then [(.slowPerf, 1)] else []) ++
    (if r.cmtLevel = 0 ∧ r.inferences > 20 then [(.hungTask, 1)] else [])

/-- The types and severities in the table, `none` where an issue was fixed. -/
def entries (d : Debug) : List (IssueType × Nat) :=
  (List.range d.issueCount).map fun i => ((d.issues i).type, (d.issues i).severity)

/-- A table with `capacity` places, where a type is entered once. -/
def note (capacity : Nat) (table : List (IssueType × Nat)) (p : IssueType × Nat) :
  List (IssueType × Nat) :=
  if p.1 ∈ table.map Prod.fst then table
  else if table.length < capacity then table ++ [p] else table

section
variable {capacity : Nat} {table ps : List (IssueType × Nat)} {p : IssueType × Nat}

lemma mem_note_iff {q : IssueType × Nat} (hne : q.1 ≠ p.1) :
  q ∈ note capacity table p ↔ q ∈ table := by
  rw [note]
  split_ifs
  · rfl
  · rw [mem_append, mem_singleton]
    exact or_iff_left fun heq => hne (congrArg Prod.fst heq)
  · rfl

lemma mem_foldl_note_iff (hp : p.1 ∉ ps.map Prod.fst) :
  p ∈ ps.foldl (note capacity) table ↔ p ∈ table := by
  induction ps generalizing table with
  | nil => rfl
  | cons q ps ih =>
    rw [map_cons, mem_cons, not_or] at hp
    rw [foldl_cons, ih hp.2, mem_note_iff hp.1]

/-- Everything is recorded exactly if what is known is known as it is, and there is a place
for the rest. -/
lemma recorded_iff (hroom : table.length ≤ capacity) (hps : (ps.map Prod.fst).Nodup) :
  (∀ p ∈ ps, p ∈ ps.foldl (note capacity) table) ↔
    (∀ p ∈ ps, p.1 ∈ table.map Prod.fst → p ∈ table) ∧
      table.length + (ps.filter fun p => p.1 ∉ table.map Prod.fst).length ≤ capacity := by
  induction ps generalizing table with
  | nil => simpa using hroom
  | cons p ps ih =>
    obtain ⟨hp, hps⟩ := nodup_cons.mp hps
    rw [foldl_cons, forall_mem_cons, forall_mem_cons, mem_foldl_note_iff hp]
    by_cases hknown : p.1 ∈ table.map Prod.fst
    · rw [note, if_pos hknown, ih hroom hps, filter_cons_of_neg (by simpa using hknown)]
      tauto
    rw [filter_cons_of_pos (by simpa using hknown), length_cons]
    rcases Nat.lt_or_ge table.length capacity with hplace | hfull
    · -- The new entry is about another type than the rest.
      have hother : ∀ q ∈ ps, q.1 ≠ p.1 := by
        intro q hq heq
        exact hp (heq ▸ mem_map_of_mem hq)
      have hkeys : ∀ q ∈ ps, q.1 ∈ (table ++ [p]).map Prod.fst ↔ q.1 ∈ table.map Prod.fst := by
        intro q hq
        rw [map_append, mem_append, map_singleton, mem_singleton]
        exact or_iff_left (hother q hq)
      have hmem : ∀ q ∈ ps, q ∈ table ++ [p] ↔ q ∈ table := by
        intro q hq
        rw [mem_append, mem_singleton]
        exact or_iff_left fun heq => hother q hq (congrArg Prod.fst heq)
      have hfilter : (ps.filter fun q => q.1 ∉ (table ++ [p]).map Prod.fst) =
          ps.filter fun q => q.1 ∉ table.map Prod.fst :=
        filter_congr fun q hq => by simp only [hkeys q hq]
      have hlength : (table ++ [p]).length = table.length + 1 := length_append
      rw [note, if_neg hknown, if_pos hplace, ih (hlength ▸ hplace) hps, hfilter, hlength,
        forall₂_congr fun q hq => by rw [hkeys q hq, hmem q hq]]
      constructor
      · rintro ⟨-, hsame, hplaces⟩
        exact ⟨⟨fun h => absurd h hknown, hsame⟩, by omega⟩
      · rintro ⟨⟨-, hsame⟩, hplaces⟩
        exact ⟨mem_append_right _ (mem_singleton_self p), hsame, by omega⟩
    rw [note, if_neg hknown, if_neg (not_lt.mpr hfull)]
    have hnot : p ∉ table := fun hmem => hknown (mem_map_of_mem hmem)
    exact iff_of_false (fun hall => hnot hall.1) fun hall => by omega

end

lemma length_entries (d : Debug) : d.entries.length = d.issueCount := by
  rw [entries, length_map, length_range]

lemma entries_addIssue (d : Debug) (type : IssueType) (severity : Nat) :
  (d.addIssue type severity).entries = note debugMaxIssues d.entries (type, severity) := by
  have hknown : type ∈ d.entries.map Prod.fst ↔ d.findIssue type ≠ none := by
    rw [findIssue, ne_eq, List.find?_eq_none]
    simp [entries]
  rw [note, addIssue]
  cases hfind : d.findIssue type with
  | some i =>
    rw [if_pos (hknown.mpr (by rw [hfind]; exact Option.some_ne_none i))]
    apply map_congr_left
    intro j _
    by_cases hj : j = i
    · subst hj
      simp only [Function.update_self]
    · simp only [Function.update_of_ne hj]
  | none =>
    rw [if_neg fun hmem => hknown.mp hmem hfind, length_entries]
    dsimp only
    split_ifs
    · exact map_range_update (fun issue => (issue.type, issue.severity)) d.issues _ _
    · rfl

def addAll (d : Debug) (ps : List (IssueType × Nat)) : Debug :=
  ps.foldl (fun d p => d.addIssue p.1 p.2) d

lemma entries_addAll (d : Debug) (ps : List (IssueType × Nat)) :
  (addAll d ps).entries = ps.foldl (note debugMaxIssues) d.entries := by
  induction ps generalizing d with
  | nil => rfl
  | cons p ps ih => rw [addAll, foldl_cons, ← addAll, ih, entries_addIssue, foldl_cons]

lemma scan_eq {d : Debug} (h : d.enabled = true) (r : Readings) :
  d.scan r = addAll { d with scanCount := u32 (d.scanCount + 1) } (fired r) := by
  have hheap : ∀ d : Debug, (if percent r.heapUsed r.heapCap > 90 then d.addIssue .memLeak 2
      else if percent r.heapUsed r.heapCap > 75 then d.addIssue .memLeak 1 else d) =
      addAll d (heapCheck r) := by
    intro d
    rw [heapCheck]
    split_ifs <;> rfl
  have herrors : ∀ d : Debug, (if r.inferences > 10 then
      if u32 (r.errors * 100) / r.inferences > 20 then d.addIssue .highErrors 2
      else if u32 (r.errors * 100) / r.inferences > 10 then d.addIssue .highErrors 1 else d
      else d) = addAll d (errorCheck r) := by
    intro d
    rw [errorCheck]
    split_ifs <;> rfl
  have hspeed : ∀ d : Debug, (if r.hz < 50 then d.addIssue .slowPerf 1 else d) =
      addAll d (if r.hz < 50 then [(.slowPerf, 1)] else []) := by
    intro d
    split_ifs <;> rfl
  have hcmt : ∀ d : Debug, (if r.cmtLevel = 0 ∧ r.inferences > 20 then d.addIssue .hungTask 1
      else d) = addAll d (if r.cmtLevel = 0 ∧ r.inferences > 20 then [(.hungTask, 1)] else []) := by
    intro d
    split_ifs <;> rfl
  rw [fired, addAll, foldl_append, foldl_append, foldl_append, ← addAll, ← addAll,
    ← addAll, ← addAll, ← hheap, ← herrors, ← hspeed, ← hcmt, scan, if_neg (by rw [h]; decide)]

lemma fired_nodup (r : Readings) : ((fired r).map Prod.fst).Nodup := by
  rw [fired, heapCheck, errorCheck]
  split_ifs <;> decide

inductive Event
  | init
  | scan (r : Readings)
  | autofix

def react (d : Debug) : Event → Debug
  | .init => .init
  | .scan r => d.scan r
  | .autofix => d.autofix.2

structure Ready (d : Debug) : Prop where
  enabled : d.enabled = true
  room : d.issueCount ≤ debugMaxIssues

namespace Ready

variable {d : Debug} (h : d.Ready)
include h

lemma addIssue (type : IssueType) (severity : Nat) : (d.addIssue type severity).Ready := by
  rw [Debug.addIssue]
  split
  · exact { h with }
  · split_ifs with hroom
    · exact ⟨h.enabled, hroom⟩
    · exact h

lemma scan (r : Readings) : (d.scan r).Ready := by
  rw [scan_eq h.enabled]
  have hstart : Ready { d with scanCount := u32 (d.scanCount + 1) } := { h with }
  generalize ({ d with scanCount := u32 (d.scanCount + 1) } : Debug) = d' at hstart
  induction fired r generalizing d' with
  | nil => exact hstart
  | cons p ps ih => exact ih _ (hstart.addIssue p.1 p.2)

lemma autofix : d.autofix.2.Ready := by
  rw [Debug.autofix]
  dsimp only
  split_ifs <;> exact { h with }

lemma step (ev : Event) : (d.react ev).Ready := by
  cases ev with
  | init => exact ⟨rfl, Nat.zero_le _⟩
  | scan r => exact h.scan r
  | autofix => exact h.autofix

end Ready
end Debug

def debugging : Machine Debug Debug.Event where
  init d := d = .init
  enabled _ _ := True
  step := Debug.react

/-- Right after a scan every check that fired is in the table, with its severity, exactly if
before the scan each issue was there with that severity or not at all, and there were places for
those that were not. -/
theorem scan_recorded_iff {d : Debug} (hd : debugging.Reachable d) (r : Readings) :
  (∀ p ∈ Debug.fired r, p ∈ (d.scan r).entries) ↔
    (∀ p ∈ Debug.fired r, p.1 ∈ d.entries.map Prod.fst → p ∈ d.entries) ∧
      d.issueCount + ((Debug.fired r).filter fun p => p.1 ∉ d.entries.map Prod.fst).length ≤
        debugMaxIssues := by
  have hready : d.Ready := by
    refine hd.invariant Debug.Ready ?_ fun d ev h _ => h.step ev
    rintro d rfl
    exact ⟨rfl, Nat.zero_le _⟩
  have hentries :
      (d.scan r).entries = (Debug.fired r).foldl (Debug.note debugMaxIssues) d.entries := by
    rw [Debug.scan_eq hready.enabled, Debug.entries_addAll]
    rfl
  rw [hentries, Debug.recorded_iff (by rw [Debug.length_entries]; exact hready.room)
    (Debug.fired_nodup r), Debug.length_entries]

/-- A timer rate below 50 Hz, and nothing else to report. -/
def slowTimer : Readings := ⟨0, 0, 0, 0, 40, 1⟩

theorem scan_recorded_first : (.slowPerf, 1) ∈ (Debug.init.scan slowTimer).entries :=
  (scan_recorded_iff (Machine.reachable_of_init rfl) slowTimer).mpr (by decide) _ (by decide)

/-- Sixteen issues that were fixed fill the table, and the seventeenth is not recorded. -/
theorem fixed_issues_fill_table :
  let d := (List.replicate 16 [Debug.Event.scan slowTimer,
    .autofix]).flatten.foldl Debug.react .init
  Debug.fired slowTimer = [(.slowPerf, 1)] ∧
    (d.scan slowTimer).entries = List.replicate 16 (.none, 0) := by
  decide +kernel

end Aeos.Ai
