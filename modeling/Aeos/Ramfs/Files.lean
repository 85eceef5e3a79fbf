/-
# RAMFS as a map from names to files

Sixteen-byte names, zero-padded after their first NUL, are the keys. An observer keeps,
for each name created and not deleted since, the writes made to it.
-/

import Aeos.Lib.Machine
import Aeos.Lib.CString
import Aeos.Lib.Slots
import Aeos.Ramfs.Model

namespace Aeos.Ramfs

open Lib Option BitVec Function

abbrev Name := Fin ramfsMaxName → UInt8

def nameIn (m : BitVec 64 → UInt8) (p : BitVec 64) : Name := fun j => m (place p j)

def Padded (n : Name) : Prop := ∀ j k, j ≤ k → n j = 0 → n k = 0

def Directory.Holds (d : Directory) (i : Nat) (n : Name) : Prop :=
  i < ramfsMaxFiles ∧ (d.files i).inUse = true ∧ ∀ j : Fin ramfsMaxName, (d.files i).name j = n j

instance (d : Directory) (i : Nat) (n : Name) : Decidable (d.Holds i n) :=
  inferInstanceAs (Decidable (_ ∧ _ ∧ _))

section
variable {d : Directory} {m : BitVec 64 → UInt8} {p : BitVec 64}

lemma Directory.Holds.name_eq {i : Nat} {n n' : Name} (h : d.Holds i n) (h' : d.Holds i n') :
  n = n' :=
  funext fun j => (h.2.2 j).symm.trans (h'.2.2 j)

lemma holds_of_findFile {i : Nat} (hfound : (findFile d p m).value = some i) :
  d.Holds i (nameIn m p) := by
  obtain ⟨hi, field, hfield, hagree⟩ := Access.lookup_eq_some _ _ _ _ _ hfound
  rw [Directory.nameAt] at hfield
  split_ifs at hfield with huse
  · cases hfield
    exact ⟨hi, huse, fun j => hagree j j.isLt⟩
  · cases hfield

lemma findFile_eq_none (hnone : (findFile d p m).value = none) (i : Nat) :
  ¬ d.Holds i (nameIn m p) := by
  rintro ⟨hi, huse, hname⟩
  obtain ⟨j, hj, hne⟩ := (Access.lookup_eq_none _ _ _ _ _).mp hnone i hi (d.files i).name (by
    rw [Directory.nameAt, if_pos huse]
    rfl)
  exact hne (hname ⟨j, hj⟩)

@[simp]
lemma mem_findFile : (findFile d p m).mem = m := Access.mem_lookup _ _ _ _ _

end

lemma copyName_eq (m : BitVec 64 → UInt8) (p : BitVec 64) (j : Fin ramfsMaxName) :
  (copyName p m).value j = zeroPad (nameIn m p) j := by
  have hvalue : (copyName p m).value j =
      ((List.range (Access.scan p (fun _ b => decide (b ≠ 0)) ramfsMaxName m).value).map
        fun k => m (place p k)).getD j 0 := by
    rw [copyName, Access.value_bind, Access.mem_scan, Access.value_bind, Access.value_loadBytes]
    rfl
  rw [hvalue, zeroPad]
  by_cases hj : (j : Nat) < (Access.scan p (fun _ b => decide (b ≠ 0)) ramfsMaxName m).value
  · rw [if_pos, List.getD_eq_getElem?_getD, List.getElem?_map, List.getElem?_range hj]
    · rfl
    intro k hk
    have hgo := Access.go_of_lt_scan p _ m (lt_of_le_of_lt (Fin.le_def.mp hk) hj)
    exact of_decide_eq_true hgo
  have hle := not_lt.mp hj
  have hstop := Access.scan_stopped _ _ _ (lt_of_le_of_lt hle j.isLt)
  rw [if_neg, List.getD_eq_getElem?_getD, List.getElem?_eq_none (by simpa using hle)]
  · rfl
  intro hall
  exact hall ⟨_, lt_of_le_of_lt hle j.isLt⟩ hle (by simpa [nameIn] using hstop)

lemma copyName_value {m : BitVec 64 → UInt8} {p : BitVec 64} (hpad : Padded (nameIn m p))
  (j : Fin ramfsMaxName) : (copyName p m).value j = nameIn m p j := by
  rw [copyName_eq, ZeroPadded.zeroPad_eq hpad]

/-! ## What the calls come to -/

section
variable {d : Directory} {st : Store} {m : BitVec 64 → UInt8} {p : BitVec 64} {i : Nat}

lemma freeSlot_some (hfree : freeSlot d = some i) :
  i < ramfsMaxFiles ∧ (d.files i).inUse = false := by
  have hmem := List.mem_range.mp (List.mem_of_find?_eq_some hfree)
  exact ⟨hmem, by simpa using List.find?_some hfree⟩

lemma ramfsCreate_found (hfound : (findFile d p m).value = some i) :
  (ramfsCreate d p m).value = (ramfsOk, d) := by
  rw [ramfsCreate, Access.value_bind, hfound]
  rfl

lemma ramfsCreate_full (hnone : (findFile d p m).value = none) (hfull : freeSlot d = none) :
  (ramfsCreate d p m).value = (ramfsErrFull, d) := by
  rw [ramfsCreate, Access.value_bind, hnone, hfull]
  rfl

def Directory.added (d : Directory) (i : Nat) (name : Nat → UInt8) : Directory where
  files := update d.files i ⟨name, 0, true⟩
  fileCount := (d.fileCount + 1) % 2 ^ 32

lemma ramfsCreate_new (hnone : (findFile d p m).value = none) (hfree : freeSlot d = some i) :
  (ramfsCreate d p m).value = (ramfsOk, d.added i (copyName p m).value) := by
  rw [ramfsCreate, Access.value_bind, mem_findFile, hnone, hfree]
  rfl

def Directory.removed (d : Directory) (i : Nat) : Directory where
  files := update d.files i { d.files i with inUse := false, size := 0 }
  fileCount := (d.fileCount + (2 ^ 32 - 1)) % 2 ^ 32

lemma ramfsDelete_missing (hnone : (findFile d p m).value = none) :
  (ramfsDelete d p m).value = (ramfsErrNotfound, d) := by
  rw [ramfsDelete, Access.value_bind, hnone]
  rfl

lemma ramfsDelete_found (hfound : (findFile d p m).value = some i) :
  (ramfsDelete d p m).value = (ramfsOk, d.removed i) := by
  rw [ramfsDelete, Access.value_bind, hfound]
  rfl

variable {data : BitVec 64} {len offset : BitVec 32}

lemma toInt_ofNat_sub {stop : Nat} (hle : offset.toNat ≤ stop) (hstop : stop < 2 ^ 31) :
  (BitVec.ofNat 32 stop - offset).toInt = stop - offset.toNat := by
  have hnat : (BitVec.ofNat 32 stop).toNat = stop := by
    exact Nat.mod_eq_of_lt (by omega)
  have hsub : (BitVec.ofNat 32 stop - offset).toNat = stop - offset.toNat := by
    rw [toNat_sub_of_le (by rw [le_def, hnat]; exact hle), hnat]
  rw [toInt_eq_toNat_of_lt (by omega), hsub]
  omega

lemma ramfsWrite_missing (hnone : (findFile st.toDirectory p m).value = none) :
  (ramfsWrite st p data len offset m).value = (ramfsErrNotfound, st) := by
  rw [ramfsWrite, Access.value_bind, hnone]
  rfl

lemma ramfsWrite_beyond (hfound : (findFile st.toDirectory p m).value = some i)
  (hoffset : ramfsMaxSize ≤ offset.toNat) :
  (ramfsWrite st p data len offset m).value = (ramfsErrInval, st) := by
  rw [ramfsWrite, Access.value_bind, hfound]
  dsimp only
  rw [if_pos hoffset]
  rfl

def copied (len offset : BitVec 32) : Nat :=
  if ramfsMaxSize - offset.toNat < len.toNat then ramfsMaxSize - offset.toNat else len.toNat

lemma copied_le (hoffset : offset.toNat < ramfsMaxSize) (len : BitVec 32) :
  offset.toNat + copied len offset ≤ ramfsMaxSize := by
  unfold copied
  split_ifs <;> omega

lemma ramfsWrite_found (hfound : (findFile st.toDirectory p m).value = some i)
  (hoffset : offset.toNat < ramfsMaxSize) (data : BitVec 64) (len : BitVec 32) :
  (ramfsWrite st p data len offset m).value = ((copied len offset : Int), st.put i offset.toNat
      ((List.range (copied len offset)).map fun j => m (place data j))) := by
  rw [ramfsWrite, Access.value_bind, mem_findFile, hfound]
  dsimp only
  rw [if_neg (not_le.mpr hoffset), Access.value_bind, Access.value_loadBytes]
  rfl

end

/-- A call, with the memory its pointers lead into. -/
inductive Event
  | create (memory : BitVec 64 → UInt8) (name : BitVec 64)
  | write (memory : BitVec 64 → UInt8) (name data : BitVec 64) (len offset : BitVec 32)
  | read (memory : BitVec 64 → UInt8) (name buf : BitVec 64) (len offset : BitVec 32)
  | delete (memory : BitVec 64 → UInt8) (name : BitVec 64)
  | queryExists (memory : BitVec 64 → UInt8) (name : BitVec 64)
  | querySize (memory : BitVec 64 → UInt8) (name : BitVec 64)

def Event.name : Event → Name
  | .create memory name => nameIn memory name
  | .write memory name _ _ _ => nameIn memory name
  | .read memory name _ _ _ => nameIn memory name
  | .delete memory name => nameIn memory name
  | .queryExists memory name => nameIn memory name
  | .querySize memory name => nameIn memory name

/-- The files, and for each name created and not deleted since the writes made to it,
latest first. -/
structure World where
  store : Store
  writes : Name → Option (List Write)

def noteCreate (writes : Name → Option (List Write)) (n : Name) (result : Int) :
  Name → Option (List Write) :=
  if result = ramfsOk ∧ writes n = none then update writes n (some []) else writes

def noteWrite (writes : Name → Option (List Write)) (n : Name) (w : Write) (result : Int) :
  Name → Option (List Write) :=
  if 0 ≤ result then update writes n ((writes n).map (w :: ·)) else writes

def noteDelete (writes : Name → Option (List Write)) (n : Name) (result : Int) :
  Name → Option (List Write) :=
  if result = ramfsOk then update writes n none else writes

def react (w : World) : Event → World
  | .create memory name =>
    let r := (ramfsCreate w.store.toDirectory name memory).value
    ⟨{ w.store with toDirectory := r.2 }, noteCreate w.writes (nameIn memory name) r.1⟩
  | .write memory name data len offset =>
    let r := (ramfsWrite w.store name data len offset memory).value
    let bytes := (List.range r.1.toNat).map fun j => memory (place data j)
    ⟨r.2, noteWrite w.writes (nameIn memory name) ⟨offset.toNat, bytes⟩ r.1⟩
  | .delete memory name =>
    let r := (ramfsDelete w.store.toDirectory name memory).value
    ⟨{ w.store with toDirectory := r.2 }, noteDelete w.writes (nameIn memory name) r.1⟩
  | .read _ _ _ _ _ => w
  | .queryExists _ _ => w
  | .querySize _ _ => w

/-- Names are padded, and no range wraps. -/
def admits (e : Event) : Prop :=
  Padded e.name ∧
    match e with
    | .write _ _ _ len offset => offset.toNat + len.toNat < 2 ^ 32
    | .read _ _ _ len offset => offset.toNat + len.toNat < 2 ^ 32
    | _ => True

/-- Every run after `ramfs_init`, whatever the slots held before. -/
def machine : Machine World Event where
  init w := (∃ before, w.store = ramfsInit before) ∧ ∀ n, w.writes n = none
  enabled _ e := admits e
  step := react

/-! ## Slots -/

def Directory.used (d : Directory) : Nat :=
  tally (fun i : Fin ramfsMaxFiles => (d.files i).inUse) true

section
variable {d : Directory} {i : Nat} {n : Name} {j : Nat}

lemma holds_added {name : Nat → UInt8} (hi : i < ramfsMaxFiles)
  (hfree : (d.files i).inUse = false) (hname : ∀ k : Fin ramfsMaxName, name k = n k) {n' : Name} :
  (d.added i name).Holds j n' ↔ (j = i ∧ n' = n) ∨ d.Holds j n' := by
  unfold Directory.Holds Directory.added
  by_cases hj : j = i
  · subst hj
    simp [hi, hfree, hname, funext_iff, eq_comm]
  · simp [hj]

lemma used_added (name : Nat → UInt8) (hi : i < ramfsMaxFiles)
  (hfree : (d.files i).inUse = false) : (d.added i name).used = d.used + 1 := by
  have hset : (fun j : Fin ramfsMaxFiles => ((d.added i name).files j).inUse) =
      update (fun j : Fin ramfsMaxFiles => (d.files j).inUse) ⟨i, hi⟩ true := by
    funext j
    by_cases hj : (j : Nat) = i
    · obtain rfl : j = ⟨i, hi⟩ := Fin.ext hj
      simp [Directory.added]
    have hne : j ≠ ⟨i, hi⟩ := fun h => hj (congrArg Fin.val h)
    simp [Directory.added, hj, hne]
  rw [Directory.used, hset, tally_update_self (by simp [hfree]), Directory.used]

lemma holds_removed : (d.removed i).Holds j n ↔ j ≠ i ∧ d.Holds j n := by
  unfold Directory.Holds Directory.removed
  by_cases hj : j = i
  · subst hj
    simp
  · simp [hj]

lemma used_removed (hi : i < ramfsMaxFiles) (huse : (d.files i).inUse = true) :
  (d.removed i).used + 1 = d.used := by
  have hset : (fun j : Fin ramfsMaxFiles => (d.files j).inUse) =
      update (fun j : Fin ramfsMaxFiles => ((d.removed i).files j).inUse) ⟨i, hi⟩ true := by
    funext j
    by_cases hj : (j : Nat) = i
    · obtain rfl : j = ⟨i, hi⟩ := Fin.ext hj
      simp [huse]
    have hne : j ≠ ⟨i, hi⟩ := fun h => hj (congrArg Fin.val h)
    simp [Directory.removed, hj, hne]
  rw [Directory.used, Directory.used, hset, tally_update_self (by simp [Directory.removed])]

lemma used_le (d : Directory) : d.used ≤ ramfsMaxFiles :=
  (tally_le_card _ _).trans_eq (Fintype.card_fin _)

lemma holds_put {st : Store} {offset : Nat} {bytes : List UInt8} :
  (st.put i offset bytes).Holds j n ↔ st.Holds j n := by
  unfold Directory.Holds Store.put
  by_cases hj : j = i
  · subst hj
    simp
  · simp [hj]

lemma used_put (st : Store) (offset : Nat) (bytes : List UInt8) :
  (st.put i offset bytes).used = st.used := by
  refine tally_congr fun j => ?_
  by_cases hj : (j : Nat) = i
  · simp [Store.put, hj]
  · simp [Store.put, hj]

lemma size_put (st : Store) (offset : Nat) (bytes : List UInt8) :
  ((st.put i offset bytes).files i).size = max (offset + bytes.length) (st.files i).size := by
  simp only [Store.put, update_self]
  split_ifs <;> omega

end

structure Kept (st st' : Store) (n : Name) : Prop where
  holds : ∀ {j n'}, n' ≠ n → (st'.Holds j n' ↔ st.Holds j n')
  size : ∀ {j n'}, n' ≠ n → st.Holds j n' → (st'.files j).size = (st.files j).size
  data : ∀ {j n'}, n' ≠ n → st.Holds j n' → st'.data j = st.data j

namespace Kept

variable {st : Store} {i : Nat} {n : Name}

lemma refl (st : Store) (n : Name) : Kept st st n :=
  ⟨fun _ => Iff.rfl, fun _ _ => rfl, fun _ _ => rfl⟩

lemma added (hi : i < ramfsMaxFiles) (hfree : (st.files i).inUse = false) {name : Nat → UInt8}
  (hname : ∀ k : Fin ramfsMaxName, name k = n k) :
  Kept st { st with toDirectory := st.added i name } n where
  holds hne := (holds_added hi hfree hname).trans (or_iff_right fun hnew => hne hnew.2)
  size {j n'} _ hj := by
    have hji : j ≠ i := by
      rintro rfl
      exact absurd (hj.2.1.symm.trans hfree) (by simp)
    simp only [Directory.added, update_of_ne hji]
  data _ _ := rfl

variable (hi : st.Holds i n)
include hi

lemma ne_slot {j : Nat} {n' : Name} (hne : n' ≠ n) (hj : st.Holds j n') : j ≠ i := by
  rintro rfl
  exact hne (hj.name_eq hi)

lemma removed : Kept st { st with toDirectory := st.removed i } n where
  holds hne := holds_removed.trans (and_iff_right_of_imp (ne_slot hi hne))
  size hne hj := by simp only [Directory.removed, update_of_ne (ne_slot hi hne hj)]
  data _ _ := rfl

lemma put (offset : Nat) (bytes : List UInt8) : Kept st (st.put i offset bytes) n where
  holds _ := holds_put
  size hne hj := by simp only [Store.put, update_of_ne (ne_slot hi hne hj)]
  data hne hj := by simp only [Store.put, update_of_ne (ne_slot hi hne hj)]

end Kept

/-- The file under a name: its size and its contents. -/
def Store.file (st : Store) (n : Name) : Option (Nat × (Nat → UInt8)) :=
  ((List.range ramfsMaxFiles).find? fun i => decide (st.Holds i n)).map fun i =>
    ((st.files i).size, st.data i)

lemma Kept.file {st st' : Store} {n n' : Name} (h : Kept st st' n) (hne : n' ≠ n) :
  st'.file n' = st.file n' := by
  have hsame : (List.range ramfsMaxFiles).find? (fun i => decide (st'.Holds i n')) =
      (List.range ramfsMaxFiles).find? fun i => decide (st.Holds i n') := by
    congr 1
    funext i
    exact decide_eq_decide.mpr (h.holds hne)
  rw [Store.file, Store.file, hsame]
  cases hfound : (List.range ramfsMaxFiles).find? fun i => decide (st.Holds i n') with
  | none => rfl
  | some i =>
    have hi : st.Holds i n' := by simpa using List.find?_some hfound
    rw [map_some, map_some, h.size hne hi, h.data hne hi]

structure Inv (w : World) : Prop where
  unique : ∀ i j n, w.store.Holds i n → w.store.Holds j n → i = j
  count : w.store.fileCount = w.store.used
  bounded : ∀ i < ramfsMaxFiles, (w.store.files i).size ≤ ramfsMaxSize
  known : ∀ n, (∃ i, w.store.Holds i n) ↔ w.writes n ≠ none
  reach : ∀ i n ws, w.store.Holds i n → w.writes n = some ws →
    (w.store.files i).size = highestEnd ws
  bytes : ∀ i n ws, w.store.Holds i n → w.writes n = some ws → ∀ p b, lastByte ws p = some b →
    w.store.data i p = b

namespace Inv

variable {w : World} {m : BitVec 64 → UInt8} {i : Nat} {n : Name}

section
variable (h : Inv w)
include h
variable {p : BitVec 64}

lemma findFile_eq (hi : w.store.Holds i (nameIn m p)) :
  (findFile w.store.toDirectory p m).value = some i := by
  cases hfound : (findFile w.store.toDirectory p m).value with
  | none => exact absurd hi (findFile_eq_none hfound i)
  | some j => rw [h.unique i j _ hi (holds_of_findFile hfound)]

lemma findFile_missing (hnone : w.writes (nameIn m p) = none) :
  (findFile w.store.toDirectory p m).value = none := by
  cases hfound : (findFile w.store.toDirectory p m).value with
  | none => rfl
  | some i => exact absurd hnone ((h.known _).mp ⟨i, holds_of_findFile hfound⟩)

lemma of_kept {st : Store} (hkept : Kept w.store st n) (hcount : st.fileCount = st.used)
  (hbounded : ∀ i < ramfsMaxFiles, (st.files i).size ≤ ramfsMaxSize)
  (file : Option (Nat × List Write)) (hslot : ∀ i, st.Holds i n ↔ file.map Prod.fst = some i)
  (hfile : ∀ i ws, file = some (i, ws) → (st.files i).size = highestEnd ws ∧
    ∀ p b, lastByte ws p = some b → st.data i p = b) :
  Inv ⟨st, update w.writes n (file.map Prod.snd)⟩ := by
  have hmine : ∀ {i ws}, st.Holds i n → file.map Prod.snd = some ws → file = some (i, ws) := by
    intro i ws hi hws
    obtain ⟨file, rfl, rfl⟩ := map_eq_some_iff.mp hws
    rw [hslot, map_some, Option.some.injEq] at hi
    rw [← hi]
  refine ⟨fun i j n' hi hj => ?_, hcount, hbounded, fun n' => ?_, fun i n' ws hi hws => ?_,
    fun i n' ws hi hws => ?_⟩
  · by_cases hn : n' = n
    · subst hn
      exact some.inj (((hslot i).mp hi).symm.trans ((hslot j).mp hj))
    · exact h.unique i j n' ((hkept.holds hn).mp hi) ((hkept.holds hn).mp hj)
  · dsimp only
    by_cases hn : n' = n
    · subst hn
      simp only [hslot]
      cases file <;> simp
    rw [update_of_ne hn, ← h.known]
    exact exists_congr fun i => hkept.holds hn
  · dsimp only at hi hws ⊢
    by_cases hn : n' = n
    · subst hn
      rw [update_self] at hws
      exact (hfile i ws (hmine hi hws)).1
    rw [update_of_ne hn] at hws
    have hi := (hkept.holds hn).mp hi
    rw [hkept.size hn hi]
    exact h.reach i n' ws hi hws
  dsimp only at hi hws ⊢
  by_cases hn : n' = n
  · subst hn
    rw [update_self] at hws
    exact (hfile i ws (hmine hi hws)).2
  rw [update_of_ne hn] at hws
  have hi := (hkept.holds hn).mp hi
  rw [hkept.data hn hi]
  exact h.bytes i n' ws hi hws

lemma added (hi : i < ramfsMaxFiles) (hfree : (w.store.files i).inUse = false)
  {name : Nat → UInt8} (hname : ∀ k : Fin ramfsMaxName, name k = n k) (hnew : w.writes n = none) :
  Inv ⟨{ w.store with toDirectory := w.store.added i name },
    update w.writes n (some [])⟩ := by
  have hnone : ∀ j, ¬ w.store.Holds j n := fun j hj => (h.known n).mp ⟨j, hj⟩ hnew
  refine h.of_kept (Kept.added hi hfree hname) ?_ (fun j hj => ?_) (some (i, [])) (fun j => ?_) ?_
  · have hle := used_le w.store.toDirectory
    show (w.store.fileCount + 1) % 2 ^ 32 = (w.store.added i name).used
    rw [used_added name hi hfree, h.count]
    exact Nat.mod_eq_of_lt (by simp only [ramfsMaxFiles] at hle; omega)
  · simp only [Directory.added]
    by_cases hji : j = i
    · rw [hji, update_self]
      exact Nat.zero_le _
    rw [update_of_ne hji]
    exact h.bounded j hj
  · refine (holds_added hi hfree hname).trans ?_
    simp [hnone, eq_comm]
  intro j ws heq
  cases heq
  exact ⟨by simp [Directory.added, highestEnd], fun p b hb => by cases hb⟩

lemma removed (hi : w.store.Holds i n) :
  Inv ⟨{ w.store with toDirectory := w.store.removed i }, update w.writes n none⟩ := by
  refine h.of_kept (Kept.removed hi) ?_ (fun j hj => ?_) none (fun j => ?_) ?_
  · have hused := used_removed hi.1 hi.2.1
    have hle := used_le w.store.toDirectory
    show (w.store.fileCount + (2 ^ 32 - 1)) % 2 ^ 32 = (w.store.removed i).used
    rw [h.count]
    simp only [ramfsMaxFiles] at hle
    omega
  · simp only [Directory.removed]
    by_cases hji : j = i
    · rw [hji, update_self]
      exact Nat.zero_le _
    rw [update_of_ne hji]
    exact h.bounded j hj
  · refine iff_of_false (fun hj => ?_) (by simp)
    obtain ⟨hne, hj⟩ := holds_removed.mp hj
    exact hne (h.unique j i n hj hi)
  intro j ws heq
  cases heq

lemma put (hi : w.store.Holds i n) {ws : List Write} (hws : w.writes n = some ws) (new : Write)
  (hstop : new.stop ≤ ramfsMaxSize) :
  Inv ⟨w.store.put i new.offset new.bytes, update w.writes n (some (new :: ws))⟩ := by
  refine h.of_kept (Kept.put hi _ _) ?_ (fun j hj => ?_) (some (i, new :: ws)) (fun j => ?_) ?_
  · rw [used_put]
    exact h.count
  · by_cases hji : j = i
    · subst hji
      rw [size_put]
      exact max_le hstop (h.bounded j hj)
    simp only [Store.put, update_of_ne hji]
    exact h.bounded j hj
  · rw [holds_put, map_some, Option.some.injEq]
    refine ⟨fun hj => h.unique i j n hi hj, ?_⟩
    rintro rfl
    exact hi
  intro j ws' heq
  cases heq
  refine ⟨?_, fun p b hb => ?_⟩
  · rw [size_put, h.reach i n ws hi hws]
    rfl
  simp only [Store.put, update_self]
  exact holds_overwrite (h.bytes i n ws hi hws) new hb

lemma create (memory : BitVec 64 → UInt8) {name : BitVec 64} (hpad : Padded (nameIn memory name)) :
  Inv (react w (.create memory name)) ∧
    Kept w.store (react w (.create memory name)).store (nameIn memory name) := by
  simp only [react]
  cases hfound : (findFile w.store.toDirectory name memory).value with
  | some i =>
    have hexists := (h.known _).mp ⟨i, holds_of_findFile hfound⟩
    rw [ramfsCreate_found hfound]
    rw [noteCreate, if_neg fun hnew => hexists hnew.2]
    exact ⟨h, Kept.refl _ _⟩
  | none =>
    cases hfree : freeSlot w.store.toDirectory with
    | none =>
      rw [ramfsCreate_full hfound hfree]
      exact ⟨h, Kept.refl _ _⟩
    | some i =>
      obtain ⟨hi, huse⟩ := freeSlot_some hfree
      have hnew : w.writes (nameIn memory name) = none := by
        by_contra hsome
        obtain ⟨j, hj⟩ := (h.known _).mpr hsome
        exact findFile_eq_none hfound j hj
      rw [ramfsCreate_new hfound hfree]
      rw [noteCreate, if_pos ⟨rfl, hnew⟩]
      exact ⟨h.added hi huse (copyName_value hpad) hnew, Kept.added hi huse (copyName_value hpad)⟩

lemma delete (memory : BitVec 64 → UInt8) (name : BitVec 64) : Inv (react w (.delete memory name)) ∧
    Kept w.store (react w (.delete memory name)).store (nameIn memory name) := by
  simp only [react]
  cases hfound : (findFile w.store.toDirectory name memory).value with
  | none =>
    rw [ramfsDelete_missing hfound]
    exact ⟨h, Kept.refl _ _⟩
  | some i =>
    have hi := holds_of_findFile hfound
    rw [ramfsDelete_found hfound]
    exact ⟨h.removed hi, Kept.removed hi⟩

lemma write (memory : BitVec 64 → UInt8) (name data : BitVec 64) (len offset : BitVec 32) :
  Inv (react w (.write memory name data len offset)) ∧
    Kept w.store (react w (.write memory name data len offset)).store (nameIn memory name) := by
  simp only [react]
  cases hfound : (findFile w.store.toDirectory name memory).value with
  | none =>
    rw [ramfsWrite_missing hfound]
    exact ⟨h, Kept.refl _ _⟩
  | some i =>
    by_cases hoffset : ramfsMaxSize ≤ offset.toNat
    · rw [ramfsWrite_beyond hfound hoffset]
      exact ⟨h, Kept.refl _ _⟩
    have hi := holds_of_findFile hfound
    obtain ⟨ws, hws⟩ := ne_none_iff_exists'.mp ((h.known _).mp ⟨i, hi⟩)
    rw [ramfsWrite_found hfound (not_le.mp hoffset)]
    rw [noteWrite, if_pos (Int.natCast_nonneg _), Int.toNat_natCast, hws]
    refine ⟨h.put hi hws ⟨offset.toNat,
      (List.range (copied len offset)).map fun j => memory (place data j)⟩ ?_, Kept.put hi _ _⟩
    simpa [Write.stop] using copied_le (not_le.mp hoffset) len

lemma step {e : Event} (hadmits : admits e) :
  Inv (react w e) ∧ Kept w.store (react w e).store e.name := by
  cases e with
  | create memory name => exact h.create memory hadmits.1
  | write memory name data len offset => exact h.write memory name data len offset
  | delete memory name => exact h.delete memory name
  | read | queryExists | querySize => exact ⟨h, Kept.refl _ _⟩

end

lemma of_init (hinit : machine.init w) : Inv w := by
  obtain ⟨⟨before, hstore⟩, hwrites⟩ := hinit
  have hfree :
      ∀ i < ramfsMaxFiles, (w.store.files i).inUse = false ∧ (w.store.files i).size = 0 := by
    intro i hi
    simp [hstore, ramfsInit, hi]
  have hnone : ∀ i n, ¬ w.store.Holds i n := by
    intro i n hi
    exact absurd (hi.2.1.symm.trans (hfree i hi.1).1) (by simp)
  refine ⟨fun i j n hi => absurd hi (hnone i n), ?_, fun i hi => ?_, fun n => ?_,
    fun i n ws hi => absurd hi (hnone i n), fun i n ws hi => absurd hi (hnone i n)⟩
  · have hzero : w.store.used = 0 := tally_eq_zero.mpr fun i => by simp [(hfree i i.isLt).1]
    rw [hzero, hstore]
    rfl
  · rw [(hfree i hi).2]
    exact Nat.zero_le _
  · exact iff_of_false (fun ⟨i, hi⟩ => hnone i n hi) (by simp [hwrites n])

lemma of_reachable (hreach : machine.Reachable w) : Inv w := by
  refine hreach.invariant Inv ?_ ?_
  · intro w hinit
    exact of_init hinit
  intro w e h henabled
  exact (h.step henabled).1

variable (h : Inv w)
include h

lemma exists_eq (m : BitVec 64 → UInt8) (name : BitVec 64) :
  (ramfsExists w.store name m).value = (w.writes (nameIn m name)).isSome := by
  show (findFile w.store.toDirectory name m).value.isSome = _
  cases hws : w.writes (nameIn m name) with
  | none =>
    rw [h.findFile_missing hws]
    rfl
  | some ws =>
    obtain ⟨i, hi⟩ := (h.known (nameIn m name)).mpr (by simp [hws])
    rw [h.findFile_eq hi]
    rfl

lemma size_eq (m : BitVec 64 → UInt8) (name : BitVec 64) :
  (ramfsSize w.store name m).value = ((w.writes (nameIn m name)).map highestEnd).getD 0 := by
  rw [ramfsSize, Access.value_bind]
  cases hws : w.writes (nameIn m name) with
  | none =>
    rw [h.findFile_missing hws]
    rfl
  | some ws =>
    obtain ⟨i, hi⟩ := (h.known (nameIn m name)).mpr (by simp [hws])
    rw [h.findFile_eq hi]
    exact h.reach i _ ws hi hws

lemma read_eq {name : BitVec 64} {ws : List Write} (hws : w.writes (nameIn m name) = some ws)
    (buf : BitVec 64) {len offset : BitVec 32} (hrange : offset.toNat + len.toNat < 2 ^ 32)
    {k : Nat} (hk : k < len.toNat) {b : UInt8} (hb : lastByte ws (offset.toNat + k) = some b) :
  (k : Int) < (ramfsRead w.store name buf len offset m).value ∧
    (ramfsRead w.store name buf len offset m).mem (place buf k) = b := by
  obtain ⟨i, hi⟩ := (h.known (nameIn m name)).mpr (by simp [hws])
  have hsize := h.reach i _ ws hi hws
  have hin := lt_highestEnd hb
  have hbound := h.bounded i hi.1
  have hsum := toNat_add_of_lt hrange
  simp only [ramfsRead, Access.value_bind, Access.mem_bind, mem_findFile, h.findFile_eq hi, hsum]
  rw [if_neg (by omega)]
  generalize hstop : (if (w.store.files i).size < offset.toNat + len.toNat then
    (w.store.files i).size
    else offset.toNat + len.toNat) = stop
  have hlt : offset.toNat + k < stop := by
    rw [← hstop]
    split_ifs <;> omega
  have hle : stop ≤ ramfsMaxSize := by
    rw [← hstop]
    split_ifs <;> omega
  simp only [ramfsMaxSize] at hle
  have hlen :
      ((List.range (stop - offset.toNat)).map fun k => w.store.data i (offset.toNat + k)).length =
      stop - offset.toNat := by simp
  simp only [Access.value_bind, Access.mem_bind, Access.run_pure]
  constructor
  · rw [toInt_ofNat_sub (by omega) (by omega)]
    omega
  rw [Access.mem_storeBytes (by rw [hlen]; omega), Access.writeAt_place (by rw [hlen]; omega)
    (by rw [hlen]; omega), List.getD_eq_getElem?_getD, List.getElem?_map,
    List.getElem?_range (by omega)]
  exact h.bytes i _ ws hi hws _ b hb

end Inv

/-- Along every run after `ramfs_init` the files are a map: a name exists exactly when it was
created and not deleted since, its size is the highest end of a write, a read gives the last byte
written at each position, and no call changes the file of another name. -/
theorem ramfs_refines_map {w : World} (hreach : machine.Reachable w) :
  (∀ i j n, w.store.Holds i n → w.store.Holds j n → i = j) ∧
  w.store.fileCount = w.store.used ∧
  (∀ i < ramfsMaxFiles, (w.store.files i).size ≤ ramfsMaxSize) ∧
  (∀ m name, (ramfsExists w.store name m).value = (w.writes (nameIn m name)).isSome) ∧
  (∀ m name, (ramfsSize w.store name m).value =
    ((w.writes (nameIn m name)).map highestEnd).getD 0) ∧
  (∀ m name buf (len offset : BitVec 32), offset.toNat + len.toNat < 2 ^ 32 →
    ∀ ws, w.writes (nameIn m name) = some ws → ∀ k < len.toNat, ∀ b,
      lastByte ws (offset.toNat + k) = some b →
        (k : Int) < (ramfsRead w.store name buf len offset m).value ∧
          (ramfsRead w.store name buf len offset m).mem (place buf k) = b) ∧
  ∀ e, admits e → ∀ n, n ≠ e.name → (react w e).store.file n = w.store.file n := by
  have h := Inv.of_reachable hreach
  refine ⟨h.unique, h.count, h.bounded, h.exists_eq, h.size_eq, ?_, ?_⟩
  · intro m name buf len offset hrange ws hws k hk b hb
    exact h.read_eq hws buf hrange hk hb
  intro e hadmits n hne
  exact (h.step hadmits).2.file hne

def emptyWorld : World :=
  ⟨ramfsInit ⟨⟨fun _ => ⟨fun _ => 0, 0, false⟩, 0⟩, fun _ _ => 7⟩, fun _ => none⟩

def sampleMemory : BitVec 64 → UInt8 := fun a => if a = 256 then 97 else if a = 512 then 5 else 0

def writtenOnce : List Event := [.create sampleMemory 256, .write sampleMemory 256 512 1 2]

theorem ramfs_refines_map_written : ∃ w : World,
  w.writes (nameIn sampleMemory 256) = some [⟨2, [5]⟩] ∧
  (ramfsExists w.store 256 sampleMemory).value = true ∧
  (ramfsSize w.store 256 sampleMemory).value = 3 ∧
  (ramfsRead w.store 256 1024 4 1 sampleMemory).mem (place 1024 1) = 5 := by
  have hpad : Padded (nameIn sampleMemory 256) := by
    unfold Padded
    decide
  have hrun : machine.Run emptyWorld writtenOnce (writtenOnce.foldl react emptyWorld) :=
    .cons ⟨hpad, trivial⟩ (.cons ⟨hpad, by decide⟩ (.nil _))
  have hreach : machine.Reachable (writtenOnce.foldl react emptyWorld) :=
    ⟨_, _, ⟨⟨_, rfl⟩, fun _ => rfl⟩, hrun⟩
  have hwrites : (writtenOnce.foldl react emptyWorld).writes (nameIn sampleMemory 256) =
      some [⟨2, [5]⟩] := by decide +kernel
  obtain ⟨_, _, _, hexists, hsize, hread, _⟩ := ramfs_refines_map hreach
  refine ⟨_, hwrites, ?_, ?_, ?_⟩
  · rfl
  · rfl
  · exact (hread sampleMemory 256 1024 4 1 (by decide) _ hwrites 1 (by decide) 5 (by decide)).2

end Aeos.Ramfs
