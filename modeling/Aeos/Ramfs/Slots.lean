/-
# Slots and their tenants

Runs of RAMFS without any restriction on the callers: buffers may hold anything behind
the NUL of a name, and ranges may wrap.
-/

import Aeos.Ramfs.Files

namespace Aeos.Ramfs.Slots

open Lib List BitVec Function

/-- The files, and for each slot the writes to its file since the file was created,
latest first. -/
structure State where
  store : Store
  since : Nat → List Write

def filled (d : Directory) (memory : BitVec 64 → UInt8) (name : BitVec 64) : Option Nat :=
  match (findFile d name memory).value with
  | some _ => none
  | none => freeSlot d

def noteWrite (since : Nat → List Write) (slot : Option Nat) (w : Write) (result : Int) :
  Nat → List Write :=
  match slot with
  | none => since
  | some i => if 0 ≤ result then update since i (w :: since i) else since

def noteCreate (since : Nat → List Write) (slot : Option Nat) : Nat → List Write :=
  match slot with
  | none => since
  | some i => update since i []

def react (s : State) : Event → State
  | .create memory name =>
    ⟨{ s.store with toDirectory := (ramfsCreate s.store.toDirectory name memory).value.2 },
      noteCreate s.since (filled s.store.toDirectory memory name)⟩
  | .write memory name data len offset =>
    let r := (ramfsWrite s.store name data len offset memory).value
    let bytes := (List.range r.1.toNat).map fun j => memory (place data j)
    ⟨r.2, noteWrite s.since (findFile s.store.toDirectory name memory).value
      ⟨offset.toNat, bytes⟩ r.1⟩
  | .delete memory name =>
    ⟨{ s.store with toDirectory := (ramfsDelete s.store.toDirectory name memory).value.2 },
      s.since⟩
  | .read _ _ _ _ _ => s
  | .queryExists _ _ => s
  | .querySize _ _ => s

def machine : Machine State Event where
  init s := ∃ before, s.store = ramfsInit before
  enabled _ _ := True
  step := react

inductive Effect (s : State) : State → Prop
  | none : Effect s s
  | created {i : Nat} (m : BitVec 64 → UInt8) (p : BitVec 64) (hi : i < ramfsMaxFiles)
      (hfree : (s.store.files i).inUse = false) :
      Effect s ⟨{ s.store with toDirectory := s.store.added i (copyName p m).value },
        update s.since i []⟩
  | removed (i : Nat) : Effect s ⟨{ s.store with toDirectory := s.store.removed i }, s.since⟩
  | stored {i : Nat} (w : Write) (huse : (s.store.files i).inUse = true)
      (hfits : w.stop ≤ ramfsMaxSize) :
      Effect s ⟨s.store.put i w.offset w.bytes, update s.since i (w :: s.since i)⟩

lemma effect_create (s : State) (memory : BitVec 64 → UInt8) (name : BitVec 64) :
  Effect s (react s (.create memory name)) := by
  simp only [react, filled]
  cases hfound : (findFile s.store.toDirectory name memory).value with
  | some i =>
    rw [ramfsCreate_found hfound]
    exact .none
  | none =>
    cases hfree : freeSlot s.store.toDirectory with
    | none =>
      rw [ramfsCreate_full hfound hfree]
      exact .none
    | some i =>
      obtain ⟨hi, huse⟩ := freeSlot_some hfree
      rw [ramfsCreate_new hfound hfree]
      exact .created memory name hi huse

lemma effect_write (s : State) (memory : BitVec 64 → UInt8) (name data : BitVec 64)
  (len offset : BitVec 32) : Effect s (react s (.write memory name data len offset)) := by
  simp only [react]
  cases hfound : (findFile s.store.toDirectory name memory).value with
  | none =>
    rw [ramfsWrite_missing hfound]
    exact .none
  | some i =>
    by_cases hoffset : ramfsMaxSize ≤ offset.toNat
    · rw [ramfsWrite_beyond hfound hoffset]
      exact .none
    rw [ramfsWrite_found hfound (not_le.mp hoffset)]
    refine .stored ⟨offset.toNat,
      (List.range (copied len offset)).map fun j => memory (place data j)⟩
      (holds_of_findFile hfound).2.1 ?_
    simpa [Write.stop] using copied_le (not_le.mp hoffset) len

lemma effect_delete (s : State) (memory : BitVec 64 → UInt8) (name : BitVec 64) :
  Effect s (react s (.delete memory name)) := by
  simp only [react]
  cases hfound : (findFile s.store.toDirectory name memory).value with
  | none =>
    rw [ramfsDelete_missing hfound]
    exact .none
  | some i =>
    rw [ramfsDelete_found hfound]
    exact .removed i

lemma effect_react (s : State) (e : Event) : Effect s (react s e) := by
  cases e with
  | create memory name => exact effect_create s memory name
  | write memory name data len offset => exact effect_write s memory name data len offset
  | delete memory name => exact effect_delete s memory name
  | read | queryExists | querySize => exact .none

structure Tenant (s : State) (i : Nat) : Prop where
  padded : ZeroPadded fun j : Fin ramfsMaxName => (s.store.files i).name j
  size : (s.store.files i).size = highestEnd (s.since i)
  bounded : (s.store.files i).size ≤ ramfsMaxSize
  bytes : ∀ p b, lastByte (s.since i) p = some b → s.store.data i p = b

def Inv (s : State) : Prop := ∀ i, (s.store.files i).inUse = true → i < ramfsMaxFiles → Tenant s i

variable {s : State}

lemma inv_of_init (hinit : machine.init s) : Inv s := by
  obtain ⟨before, hstore⟩ := hinit
  intro i huse hi
  simp [hstore, ramfsInit, hi] at huse

lemma Tenant.of_same {s' : State} {i : Nat} (h : Tenant s i)
  (hfile : s'.store.files i = s.store.files i) (hdata : s'.store.data i = s.store.data i)
  (hsince : s'.since i = s.since i) : Tenant s' i where
  padded := hfile ▸ h.padded
  size := by rw [hfile, hsince, h.size]
  bounded := hfile ▸ h.bounded
  bytes := by rw [hdata, hsince]; exact h.bytes

lemma inv_of_effect {s' : State} (h : Inv s) (heffect : Effect s s') : Inv s' := by
  cases heffect with
  | none => exact h
  | @created i m p hi hfree =>
    intro j huse hj
    by_cases hji : j = i
    · subst hji
      refine ⟨?_, ?_, ?_, ?_⟩
      · have hname : (fun k : Fin ramfsMaxName => (copyName p m).value k) = zeroPad (nameIn m p) :=
          funext (copyName_eq m p)
        simp only [Directory.added, update_self, hname]
        exact zeroPadded_zeroPad _
      · simp [Directory.added, highestEnd]
      · simp [Directory.added]
      intro q b hb
      simp only [update_self] at hb
      cases hb
    simp only [Directory.added, update_of_ne hji] at huse
    refine (h j huse hj).of_same ?_ rfl ?_
    · simp only [Directory.added, update_of_ne hji]
    · simp only [update_of_ne hji]
  | removed i =>
    intro j huse hj
    by_cases hji : j = i
    · subst hji
      simp [Directory.removed] at huse
    simp only [Directory.removed, update_of_ne hji] at huse
    refine (h j huse hj).of_same ?_ rfl rfl
    simp only [Directory.removed, update_of_ne hji]
  | @stored i w huse hfits =>
    intro j huse' hj
    by_cases hji : j = i
    · subst hji
      have hold := h j huse hj
      refine ⟨?_, ?_, ?_, ?_⟩
      · simpa only [Store.put, update_self] using hold.padded
      · simp only [size_put, hold.size, update_self]
        rfl
      · rw [size_put]
        exact max_le hfits hold.bounded
      intro q b hb
      simp only [update_self] at hb
      simp only [Store.put, update_self]
      exact holds_overwrite hold.bytes w hb
    simp only [Store.put, update_of_ne hji] at huse'
    refine (h j huse' hj).of_same ?_ ?_ ?_
    · simp only [Store.put, update_of_ne hji]
    · simp only [Store.put, update_of_ne hji]
    · simp only [update_of_ne hji]

lemma inv_of_reachable (hreach : machine.Reachable s) : Inv s :=
  hreach.invariant Inv (fun _ hinit => inv_of_init hinit)
    fun s e h _ => inv_of_effect h (effect_react s e)

lemma tenant_of_findFile (hreach : machine.Reachable s) {m : BitVec 64 → UInt8}
  {p : BitVec 64} {i : Nat} (hfound : (findFile s.store.toDirectory p m).value = some i) :
  Tenant s i := by
  have hholds := holds_of_findFile hfound
  exact inv_of_reachable hreach i hholds.2.1 hholds.1

section
variable {st : Store} {m : BitVec 64 → UInt8} {p : BitVec 64} {i : Nat}

def readStop (size : Nat) (len offset : BitVec 32) : Nat :=
  if size < (offset + len).toNat then size else (offset + len).toNat

def readBytes (size : Nat) (data : Nat → UInt8) (len offset : BitVec 32) : List UInt8 :=
  if size ≤ offset.toNat then []
  else (List.range (readStop size len offset - offset.toNat)).map fun k => data (offset.toNat + k)

def readResult (size : Nat) (len offset : BitVec 32) : Int :=
  if size ≤ offset.toNat then 0 else (BitVec.ofNat 32 (readStop size len offset) - offset).toInt

lemma ramfsRead_found (hfound : (findFile st.toDirectory p m).value = some i)
  (buf : BitVec 64) (len offset : BitVec 32) :
  (ramfsRead st p buf len offset m).value = readResult (st.files i).size len offset ∧
    (ramfsRead st p buf len offset m).mem =
      Access.writeAt m buf (readBytes (st.files i).size (st.data i) len offset) := by
  rw [ramfsRead, Access.value_bind, Access.mem_bind, mem_findFile, hfound]
  simp only [readResult, readBytes]
  by_cases hbeyond : (st.files i).size ≤ offset.toNat
  · simp only [if_pos hbeyond, Access.run_pure, true_and]
    funext a
    rw [Access.writeAt, getD_nil]
  simp only [if_neg hbeyond, Access.value_bind, Access.mem_bind, Access.run_pure]
  refine ⟨rfl, Access.mem_storeBytes ?_ m⟩
  rw [length_map, length_range]
  split_ifs <;> omega

end

def available (size len offset : Nat) : Nat := if offset < size then min len (size - offset) else 0

/-- The call returns the number of bytes that are there and puts exactly these into the
buffer. -/
def ReadsExactly (st : Store) (i : Nat) (p buf : BitVec 64) (len offset : BitVec 32)
  (m : BitVec 64 → UInt8) : Prop :=
  let n := available (st.files i).size len.toNat offset.toNat
  (ramfsRead st p buf len offset m).value = n ∧
    (ramfsRead st p buf len offset m).mem =
      Access.writeAt m buf ((List.range n).map fun k => st.data i (offset.toNat + k))

lemma readResult_neg {size : Nat} {len offset : BitVec 32} (hsize : size ≤ ramfsMaxSize)
  (hinside : offset.toNat < size) (hwraps : 2 ^ 32 ≤ offset.toNat + len.toNat) :
  readResult size len offset = (len.toNat : Int) - 2 ^ 32 := by
  have hsum : (offset + len).toNat = offset.toNat + len.toNat - 2 ^ 32 := by
    rw [toNat_add]
    omega
  unfold ramfsMaxSize at hsize
  have hstop : readStop size len offset = offset.toNat + len.toNat - 2 ^ 32 := by
    rw [readStop, hsum, if_neg (by omega)]
  have hback : BitVec.ofNat 32 (readStop size len offset) = offset + len := by
    rw [hstop, ← hsum, ofNat_toNat, setWidth_eq]
  rw [readResult, if_neg (by omega), hback, BitVec.add_comm, BitVec.add_sub_cancel,
    toInt_eq_toNat_cond, if_neg (by omega)]
  norm_cast

/-- For a file that exists, a read returns what is there exactly when it starts past the
end or its range does not wrap. -/
theorem ramfs_read_exact_iff {s : State} (hreach : machine.Reachable s)
  {m : BitVec 64 → UInt8} {p : BitVec 64} {i : Nat}
  (hfound : (findFile s.store.toDirectory p m).value = some i) (buf : BitVec 64)
  (len offset : BitVec 32) :
  ReadsExactly s.store i p buf len offset m ↔
    (s.store.files i).size ≤ offset.toNat ∨ offset.toNat + len.toNat < 2 ^ 32 := by
  have hsize := (tenant_of_findFile hreach hfound).bounded
  obtain ⟨hvalue, hmem⟩ := ramfsRead_found hfound buf len offset
  unfold ReadsExactly
  rw [hvalue, hmem]
  generalize hfile : (s.store.files i).size = size at *
  by_cases hbeyond : size ≤ offset.toNat
  · refine iff_of_true ?_ (.inl hbeyond)
    simp [readResult, readBytes, available, hbeyond, not_lt.mpr hbeyond]
  by_cases hwraps : offset.toNat + len.toNat < 2 ^ 32
  · refine iff_of_true ?_ (.inr hwraps)
    have hsum := toNat_add_of_lt hwraps
    have hstop :
        readStop size len offset = offset.toNat + available size len.toNat offset.toNat := by
      rw [readStop, hsum, available, if_pos (not_le.mp hbeyond)]
      split_ifs <;> omega
    have hlow : available size len.toNat offset.toNat ≤ size - offset.toNat := by
      rw [available, if_pos (not_le.mp hbeyond)]
      exact min_le_right _ _
    unfold ramfsMaxSize at hsize
    refine ⟨?_, ?_⟩
    · rw [readResult, if_neg hbeyond, hstop, toInt_ofNat_sub (by omega) (by omega)]
      omega
    · rw [readBytes, if_neg hbeyond, hstop, Nat.add_sub_cancel_left]
  refine iff_of_false ?_ (by omega)
  rintro ⟨hresult, _⟩
  rw [readResult_neg hsize (not_le.mp hbeyond) (not_lt.mp hwraps)] at hresult
  omega

def bootState : State :=
  ⟨ramfsInit ⟨⟨fun _ => ⟨fun _ => 0, 0, false⟩, 0⟩, fun _ _ => 0⟩, fun _ => []⟩

lemma init_bootState : machine.init bootState := ⟨_, rfl⟩

lemma reachable_foldl (es : List Event) : machine.Reachable (es.foldl react bootState) :=
  ⟨_, _, init_bootState, Machine.run_foldl (M := machine) (fun _ _ => trivial) _ _⟩

def twoBytes : State :=
  [Event.create sampleMemory 256, .write sampleMemory 256 512 2 0].foldl react bootState

theorem ramfs_read_exact_tail : ReadsExactly twoBytes.store 0 256 1024 10 1 sampleMemory :=
  (ramfs_read_exact_iff (reachable_foldl _) (by decide +kernel) 1024 10 1).mpr (.inr (by decide))

/-- A read of `UINT32_MAX` bytes from position 1 of a file of two bytes returns `-1`. -/
theorem ramfs_read_wraps : machine.Reachable twoBytes ∧
    (findFile twoBytes.store.toDirectory 256 sampleMemory).value = some 0 ∧
    (twoBytes.store.files 0).size = 2 ∧
    (ramfsRead twoBytes.store 256 1024 0xFFFFFFFF 1 sampleMemory).value = -1 :=
  ⟨reachable_foldl _, by decide +kernel, by decide +kernel, by decide +kernel⟩

end Aeos.Ramfs.Slots
