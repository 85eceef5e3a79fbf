/-
# Contents of deleted files

A two-run property. Two runs make the same calls, but before a file is created they may
write different bytes. Afterwards they do the same.
-/

import Aeos.Ramfs.Slots

namespace Aeos.Ramfs.Slots

open Lib Function

/-- Every position below the end has been written. -/
def Covered (ws : List Write) : Prop := ∀ q < highestEnd ws, (lastByte ws q).isSome = true

instance (ws : List Write) : Decidable (Covered ws) :=
  inferInstanceAs (Decidable (∀ q < _, _))

def ReadsAgree (st st' : Store) (m : BitVec 64 → UInt8) (p p' : BitVec 64) : Prop :=
  ∀ buf len offset,
    (ramfsRead st p buf len offset m).value = (ramfsRead st' p' buf len offset m).value ∧
      (ramfsRead st p buf len offset m).mem = (ramfsRead st' p' buf len offset m).mem

lemma readBytes_congr {size : Nat} {data data' : Nat → UInt8}
  (hdata : ∀ q < size, data q = data' q) (len offset : BitVec 32) :
  readBytes size data len offset = readBytes size data' len offset := by
  unfold readBytes
  split
  · rfl
  apply List.map_congr_left
  intro k hk
  rw [List.mem_range] at hk
  have hstop : readStop size len offset ≤ size := by
    unfold readStop
    split_ifs <;> omega
  exact hdata _ (by omega)

variable {s s' : State} {i : Nat} {ws : List Write} {m : BitVec 64 → UInt8}

lemma readsAgree_of_covered (hreach : machine.Reachable s)
    (hreach' : machine.Reachable s') {p p' : BitVec 64} {i' : Nat}
  (hfound : (findFile s.store.toDirectory p m).value = some i)
  (hfound' : (findFile s'.store.toDirectory p' m).value = some i')
  (hsince : s.since i = s'.since i') (hcovered : Covered (s.since i)) :
  ReadsAgree s.store s'.store m p p' := by
  intro buf len offset
  have htenant := tenant_of_findFile hreach hfound
  have htenant' := tenant_of_findFile hreach' hfound'
  obtain ⟨hvalue, hmem⟩ := ramfsRead_found hfound buf len offset
  obtain ⟨hvalue', hmem'⟩ := ramfsRead_found hfound' buf len offset
  have hsize : (s.store.files i).size = (s'.store.files i').size := by
    rw [htenant.size, htenant'.size, hsince]
  have hdata : ∀ q < (s'.store.files i').size, s.store.data i q = s'.store.data i' q := by
    intro q hq
    rw [← hsize, htenant.size] at hq
    obtain ⟨b, hb⟩ := Option.isSome_iff_exists.mp (hcovered q hq)
    rw [htenant.bytes q b hb, htenant'.bytes q b (hsince ▸ hb)]
  rw [hvalue, hvalue', hmem, hmem', hsize, readBytes_congr hdata]
  exact ⟨rfl, rfl⟩

/-! ## Two runs -/

def SameCall : Event → Event → Prop
  | .create m p, .create m' p' => nameIn m p = nameIn m' p'
  | .write m p _ len offset, .write m' p' _ len' offset' =>
    nameIn m p = nameIn m' p' ∧ len = len' ∧ offset = offset'
  | .read m p _ len offset, .read m' p' _ len' offset' =>
    nameIn m p = nameIn m' p' ∧ len = len' ∧ offset = offset'
  | .delete m p, .delete m' p' => nameIn m p = nameIn m' p'
  | .queryExists m p, .queryExists m' p' => nameIn m p = nameIn m' p'
  | .querySize m p, .querySize m' p' => nameIn m p = nameIn m' p'
  | _, _ => False

section
variable {d : Directory} {m m' : BitVec 64 → UInt8} {p p' : BitVec 64}
  (hname : nameIn m p = nameIn m' p')

include hname

lemma findFile_congr : (findFile d p m).value = (findFile d p' m').value :=
  Access.lookup_congr _ _ _ _ _ fun j hj => congrFun hname ⟨j, hj⟩

lemma copyName_congr : (copyName p m).value = (copyName p' m').value := by
  have hbeyond : ∀ (m : BitVec 64 → UInt8) (p : BitVec 64) (k : Nat), ramfsMaxName ≤ k →
      (copyName p m).value k = 0 := by
    intro m p k hk
    rw [copyName, Access.value_bind, Access.mem_scan, Access.value_bind, Access.value_loadBytes]
    apply List.getD_eq_default
    rw [List.length_map, List.length_range]
    exact (Access.scan_value_le p _ m ramfsMaxName).trans hk
  funext k
  by_cases hk : k < ramfsMaxName
  · have hstored := copyName_eq m p ⟨k, hk⟩
    rw [hname, ← copyName_eq m' p' ⟨k, hk⟩] at hstored
    exact hstored
  · rw [hbeyond m p k (not_lt.mp hk), hbeyond m' p' k (not_lt.mp hk)]

lemma ramfsCreate_congr : (ramfsCreate d p m).value = (ramfsCreate d p' m').value := by
  have hfind := findFile_congr (d := d) hname
  cases hfound : (findFile d p' m').value with
  | some i => rw [ramfsCreate_found hfound, ramfsCreate_found (hfind.trans hfound)]
  | none =>
    cases hfree : freeSlot d with
    | none => rw [ramfsCreate_full hfound hfree, ramfsCreate_full (hfind.trans hfound) hfree]
    | some i =>
      rw [ramfsCreate_new hfound hfree, ramfsCreate_new (hfind.trans hfound) hfree,
        copyName_congr hname]

lemma ramfsDelete_congr : (ramfsDelete d p m).value = (ramfsDelete d p' m').value := by
  have hfind := findFile_congr (d := d) hname
  cases hfound : (findFile d p' m').value with
  | none => rw [ramfsDelete_missing hfound, ramfsDelete_missing (hfind.trans hfound)]
  | some i => rw [ramfsDelete_found hfound, ramfsDelete_found (hfind.trans hfound)]

lemma ramfsWrite_congr {st st' : Store} (hdir : st.toDirectory = st'.toDirectory)
  (data data' : BitVec 64) (len offset : BitVec 32) :
  (ramfsWrite st p data len offset m).value.1 = (ramfsWrite st' p' data' len offset m').value.1 ∧
    (ramfsWrite st p data len offset m).value.2.toDirectory =
      (ramfsWrite st' p' data' len offset m').value.2.toDirectory := by
  have hfind : (findFile st.toDirectory p m).value = (findFile st'.toDirectory p' m').value := by
    rw [hdir]
    exact findFile_congr hname
  cases hfound : (findFile st'.toDirectory p' m').value with
  | none =>
    rw [ramfsWrite_missing hfound, ramfsWrite_missing (hfind.trans hfound)]
    exact ⟨rfl, hdir⟩
  | some i =>
    by_cases hoffset : ramfsMaxSize ≤ offset.toNat
    · rw [ramfsWrite_beyond hfound hoffset, ramfsWrite_beyond (hfind.trans hfound) hoffset]
      exact ⟨rfl, hdir⟩
    rw [ramfsWrite_found hfound (not_le.mp hoffset),
      ramfsWrite_found (hfind.trans hfound) (not_le.mp hoffset)]
    refine ⟨rfl, ?_⟩
    simp only [Store.put, hdir, List.length_map, List.length_range]

end

lemma SameCall.refl (e : Event) : SameCall e e := by
  cases e <;> simp [SameCall]

structure Alike (i : Nat) (s s' : State) : Prop where
  directory : s.store.toDirectory = s'.store.toDirectory
  since : s.since i = s'.since i

section
variable (hdir : s.store.toDirectory = s'.store.toDirectory)
include hdir

lemma directory_react {e e' : Event} (hcall : SameCall e e') :
  (react s e).store.toDirectory = (react s' e').store.toDirectory := by
  cases e with
  | create m p =>
    cases e' with
    | create m' p' =>
      simp only [react, hdir]
      rw [ramfsCreate_congr hcall]
    | _ => exact hcall.elim
  | write m p data len offset =>
    cases e' with
    | write m' p' data' len' offset' =>
      obtain ⟨hname, rfl, rfl⟩ := hcall
      exact (ramfsWrite_congr hname hdir data data' len offset).2
    | _ => exact hcall.elim
  | delete m p =>
    cases e' with
    | delete m' p' =>
      simp only [react, hdir]
      rw [ramfsDelete_congr hcall]
    | _ => exact hcall.elim
  | read | queryExists | querySize =>
    cases e' with
    | read | queryExists | querySize => exact hdir
    | _ => exact hcall.elim

lemma directory_run {es es' : List Event} (hcalls : List.Forall₂ SameCall es es') :
  (es.foldl react s).store.toDirectory = (es'.foldl react s').store.toDirectory := by
  induction hcalls generalizing s s' with
  | nil => exact hdir
  | cons hcall _ ih => exact ih (directory_react hdir hcall)

end

lemma Alike.react (h : Alike i s s') (e : Event) : Alike i (react s e) (react s' e) := by
  refine ⟨directory_react h.directory (SameCall.refl e), ?_⟩
  cases e with
  | create m p =>
    simp only [Slots.react, h.directory]
    cases filled s'.store.toDirectory m p with
    | none => exact h.since
    | some j =>
      by_cases hij : i = j
      · simp [noteCreate, hij]
      · simp [noteCreate, hij, h.since]
  | write m p data len offset =>
    simp only [Slots.react, h.directory]
    rw [(ramfsWrite_congr rfl h.directory data data len offset).1]
    cases (findFile s'.store.toDirectory p m).value with
    | none => exact h.since
    | some j =>
      simp only [noteWrite]
      split_ifs
      · by_cases hij : i = j
        · subst hij
          simp [h.since]
        · simp [hij, h.since]
      · exact h.since
  | delete | read | queryExists | querySize => exact h.since

lemma Alike.run (h : Alike i s s') (es : List Event) :
  Alike i (es.foldl Slots.react s) (es.foldl Slots.react s') := by
  induction es generalizing s s' with
  | nil => exact h
  | cons e es ih => exact ih (h.react e)

lemma alike_of_filled (hdir : s.store.toDirectory = s'.store.toDirectory)
  {p : BitVec 64} (hfilled : filled s.store.toDirectory m p = some i) :
  Alike i (react s (.create m p)) (react s' (.create m p)) := by
  refine ⟨directory_react hdir (SameCall.refl _), ?_⟩
  simp only [react, ← hdir, hfilled, noteCreate, update_self]

/-! ## A slot that is handed on

Runs that use one slot only, under the empty name. -/

def tape (bytes : List UInt8) : BitVec 64 → UInt8 := fun a =>
  if a.toNat < ramfsMaxName then 0 else bytes.getD (a.toNat - ramfsMaxName) 0

def writeOf (w : Write) : Event :=
  .write (tape w.bytes) 0 16 (BitVec.ofNat 32 w.bytes.length) (BitVec.ofNat 32 w.offset)

def formerTenant (fill : UInt8) : List Event :=
  [.create (tape []) 0, writeOf ⟨0, List.replicate ramfsMaxSize fill⟩, .delete (tape []) 0]

def Fits (w : Write) : Prop := w.offset < ramfsMaxSize ∧ w.stop ≤ ramfsMaxSize

instance (w : Write) : Decidable (Fits w) := inferInstanceAs (Decidable (_ ∧ _))

lemma nameIn_tape (bytes : List UInt8) : nameIn (tape bytes) 0 = fun _ => 0 := by
  funext j
  have hj : (0#64 + BitVec.ofNat 64 j).toNat < ramfsMaxName := by
    have hlt : (j : Nat) < 16 := j.isLt
    rw [BitVec.zero_add, BitVec.toNat_ofNat, Nat.mod_eq_of_lt (by omega)]
    exact hlt
  exact if_pos hj

lemma tape_place (bytes : List UInt8) {j : Nat} (hj : j < ramfsMaxSize) :
  tape bytes (place 16 j) = bytes.getD j 0 := by
  have haddr : ((16 : BitVec 64) + BitVec.ofNat 64 j).toNat = 16 + j := by
    unfold ramfsMaxSize at hj
    rw [BitVec.toNat_add, BitVec.toNat_ofNat]
    simp only [BitVec.reduceToNat]
    omega
  unfold tape place
  rw [haddr]
  simp [ramfsMaxName]

def Vacant (s : State) : Prop := ∀ i < ramfsMaxFiles, (s.store.files i).inUse = false

structure Alone (s : State) : Prop where
  used : (s.store.files 0).inUse = true
  name : ∀ j : Fin ramfsMaxName, (s.store.files 0).name j = 0
  others : ∀ i < ramfsMaxFiles, i ≠ 0 → (s.store.files i).inUse = false

lemma Vacant.lookup (h : Vacant s) (m : BitVec 64 → UInt8) (p : BitVec 64) :
  (findFile s.store.toDirectory p m).value = none ∧ freeSlot s.store.toDirectory = some 0 := by
  constructor
  · cases hfound : (findFile s.store.toDirectory p m).value with
    | none => rfl
    | some i =>
      obtain ⟨hi, huse, _⟩ := holds_of_findFile hfound
      rw [h i hi] at huse
      cases huse
  have hfirst := h 0 (by decide)
  simp [freeSlot, ramfsMaxFiles, List.range_succ_eq_map, hfirst]

lemma Alone.findFile_eq (h : Alone s) (bytes : List UInt8) :
  (findFile s.store.toDirectory 0 (tape bytes)).value = some 0 := by
  cases hfound : (findFile s.store.toDirectory 0 (tape bytes)).value with
  | none =>
    refine absurd ⟨by decide, h.used, fun j => ?_⟩ (findFile_eq_none hfound 0)
    rw [h.name, nameIn_tape]
  | some i =>
    obtain ⟨hi, huse, _⟩ := holds_of_findFile hfound
    by_cases hzero : i = 0
    · rw [hzero]
    rw [h.others i hi hzero] at huse
    cases huse

lemma Vacant.create (h : Vacant s) :
  Alone (react s (.create (tape []) 0)) ∧ (react s (.create (tape []) 0)).since 0 = [] ∧
    (react s (.create (tape []) 0)).store.data = s.store.data := by
  obtain ⟨hnone, hfree⟩ := h.lookup (tape []) 0
  have hreact : react s (.create (tape []) 0) =
      ⟨{ s.store with toDirectory := s.store.added 0 (copyName 0 (tape [])).value },
        update s.since 0 []⟩ := by
    simp only [react, filled, hnone, hfree, ramfsCreate_new hnone hfree, noteCreate]
  rw [hreact]
  refine ⟨⟨?_, ?_, ?_⟩, ?_, rfl⟩
  · simp [Directory.added]
  · intro j
    simp only [Directory.added, update_self, copyName_eq, nameIn_tape]
    simp [zeroPad]
  · intro i hi hne
    simp only [Directory.added, update_of_ne hne]
    exact h i hi
  · simp only [update_self]

section
variable (h : Alone s)
include h

lemma Alone.delete : Vacant (react s (.delete (tape []) 0)) ∧
    (react s (.delete (tape []) 0)).store.data = s.store.data := by
  have hreact : react s (.delete (tape []) 0) =
      ⟨{ s.store with toDirectory := s.store.removed 0 }, s.since⟩ := by
    simp only [react, ramfsDelete_found (h.findFile_eq [])]
  rw [hreact]
  refine ⟨fun i hi => ?_, rfl⟩
  by_cases hi0 : i = 0
  · simp [Directory.removed, hi0]
  simp only [Directory.removed, update_of_ne hi0]
  exact h.others i hi hi0

lemma Alone.write {w : Write} (hw : Fits w) : react s (writeOf w) =
    ⟨s.store.put 0 w.offset w.bytes, update s.since 0 (w :: s.since 0)⟩ := by
  obtain ⟨offset, bytes⟩ := w
  obtain ⟨hoffset, hstop⟩ : offset < ramfsMaxSize ∧ offset + bytes.length ≤ ramfsMaxSize := hw
  have hoff : (BitVec.ofNat 32 offset).toNat = offset := by
    exact Nat.mod_eq_of_lt (by unfold ramfsMaxSize at hoffset; omega)
  have hlen : (BitVec.ofNat 32 bytes.length).toNat = bytes.length := by
    exact Nat.mod_eq_of_lt (by unfold ramfsMaxSize at hstop; omega)
  have hcopied : copied (BitVec.ofNat 32 bytes.length) (BitVec.ofNat 32 offset) = bytes.length := by
    rw [copied, hoff, hlen, if_neg (by omega)]
  have hbytes : ((List.range bytes.length).map fun j => tape bytes (place 16 j)) = bytes := by
    apply List.ext_getElem (by simp)
    intro j hj _
    rw [List.length_map, List.length_range] at hj
    rw [List.getElem_map, List.getElem_range, tape_place bytes (by omega),
      List.getD_eq_getElem _ _ hj]
  have hcall := ramfsWrite_found (h.findFile_eq bytes) (by rw [hoff]; exact hoffset) 16
    (BitVec.ofNat 32 bytes.length)
  rw [hcopied, hbytes, hoff] at hcall
  simp only [writeOf, react, hcall, h.findFile_eq, noteWrite, Int.natCast_nonneg, if_true,
    Int.toNat_natCast, hbytes, hoff]

lemma Alone.put (w : Write) (since : Nat → List Write) :
  Alone ⟨s.store.put 0 w.offset w.bytes, since⟩ where
  used := by simpa [Store.put] using h.used
  name := by simpa [Store.put] using h.name
  others i hi hne := by simpa only [Store.put, update_of_ne hne] using h.others i hi hne

lemma Alone.writes (hws : ∀ w ∈ ws, Fits w) : Alone ((ws.map writeOf).foldl react s) ∧
    ((ws.map writeOf).foldl react s).since 0 = ws.reverse ++ s.since 0 ∧
    ∀ q, lastByte ws.reverse q = none →
      ((ws.map writeOf).foldl react s).store.data 0 q = s.store.data 0 q := by
  induction ws generalizing s with
  | nil => exact ⟨h, rfl, fun _ _ => rfl⟩
  | cons w ws ih =>
    rw [List.map_cons, List.foldl_cons, h.write (hws w List.mem_cons_self)]
    obtain ⟨halone, hsince, hdata⟩ := ih (h.put w (update s.since 0 (w :: s.since 0)))
      fun u hu => hws u (List.mem_cons_of_mem _ hu)
    refine ⟨halone, ?_, ?_⟩
    · rw [hsince]
      simp
    intro q hq
    rw [List.reverse_cons, lastByte, List.findSome?_append, Option.or_eq_none_iff] at hq
    have hout : ¬ (w.offset ≤ q ∧ q < w.stop) := by
      intro hin
      have hnone := hq.2
      simp [Write.byteAt, hin] at hnone
    rw [hdata q hq.1]
    exact if_neg hout

end

lemma sameCall_writeOf {w w' : Write} (hoffset : w.offset = w'.offset)
  (hlength : w.bytes.length = w'.bytes.length) : SameCall (writeOf w) (writeOf w') := by
  refine ⟨?_, ?_, ?_⟩
  · rw [nameIn_tape, nameIn_tape]
  · rw [hlength]
  · rw [hoffset]

lemma sameCall_formerTenant (fill fill' : UInt8) :
  List.Forall₂ SameCall (formerTenant fill) (formerTenant fill') := by
  have hlength : (List.replicate ramfsMaxSize fill).length =
      (List.replicate ramfsMaxSize fill').length := by
    rw [List.length_replicate, List.length_replicate]
  exact .cons (SameCall.refl _) (.cons (sameCall_writeOf rfl hlength)
    (.cons (SameCall.refl _) .nil))

def handedOn (fill : UInt8) (ws : List Write) : List Event :=
  formerTenant fill ++ .create (tape []) 0 :: ws.map writeOf

section
variable (hinit : machine.init s)
include hinit

lemma vacant_init : Vacant s := by
  obtain ⟨before, hstore⟩ := hinit
  intro i hi
  simp [hstore, ramfsInit, hi]

lemma formerTenant_run (fill : UInt8) : Vacant ((formerTenant fill).foldl react s) ∧
    ∀ q < ramfsMaxSize, ((formerTenant fill).foldl react s).store.data 0 q = fill := by
  obtain ⟨halone, _, _⟩ := (vacant_init hinit).create
  have hfits : Fits ⟨0, List.replicate ramfsMaxSize fill⟩ :=
    ⟨(by decide : 0 < ramfsMaxSize), by simp [Write.stop]⟩
  have hput := halone.put ⟨0, List.replicate ramfsMaxSize fill⟩ (update
    (react s (.create (tape []) 0)).since 0
    (⟨0, List.replicate ramfsMaxSize fill⟩ :: (react s (.create (tape []) 0)).since 0))
  obtain ⟨hvacant, hdata⟩ := hput.delete
  have hrun : (formerTenant fill).foldl react s =
      react (react (react s (.create (tape []) 0))
        (writeOf ⟨0, List.replicate ramfsMaxSize fill⟩)) (.delete (tape []) 0) := rfl
  rw [hrun, halone.write hfits]
  refine ⟨hvacant, fun q hq => ?_⟩
  rw [hdata]
  simp only [Store.put, update_self, overwrite, List.length_replicate, Nat.zero_le,
    Nat.zero_add, hq, and_self, if_true, Nat.sub_zero]
  rw [List.getD_eq_getElem _ _ (by simpa using hq), List.getElem_replicate]

lemma handedOn_run (fill : UInt8) (hws : ∀ w ∈ ws, Fits w) :
  Alone ((handedOn fill ws).foldl react s) ∧
    ((handedOn fill ws).foldl react s).since 0 = ws.reverse ∧
    ∀ q < ramfsMaxSize, lastByte ws.reverse q = none →
      ((handedOn fill ws).foldl react s).store.data 0 q = fill := by
  obtain ⟨hvacant, hfill⟩ := formerTenant_run hinit fill
  obtain ⟨halone, hsince, hdata⟩ := hvacant.create
  obtain ⟨halone', hsince', hdata'⟩ := halone.writes hws
  rw [handedOn, List.foldl_append, List.foldl_cons]
  refine ⟨halone', ?_, ?_⟩
  · rw [hsince', hsince, List.append_nil]
  intro q hq hnone
  rw [hdata' q hnone, hdata]
  exact hfill q hq

end

lemma highestEnd_le (hws : ∀ w ∈ ws, Fits w) : highestEnd ws ≤ ramfsMaxSize := by
  induction ws with
  | nil => exact Nat.zero_le _
  | cons w ws ih =>
    exact max_le (hws w List.mem_cons_self).2 (ih fun u hu => hws u (List.mem_cons_of_mem _ hu))

lemma handedOn_shows (ws : List Write) (hws : ∀ w ∈ ws, Fits w) {q : Nat}
  (hq : q < highestEnd ws) (hgap : lastByte ws q = none) (fill : UInt8) :
  (ramfsRead ((handedOn fill ws.reverse).foldl react bootState).store 0 16 1
    (BitVec.ofNat 32 q) (tape [])).mem 16 = fill := by
  have hlow := lt_of_lt_of_le hq (highestEnd_le hws)
  obtain ⟨halone, hsince, hdata⟩ := handedOn_run init_bootState fill
    fun w hw => hws w (List.mem_reverse.mp hw)
  rw [List.reverse_reverse] at hsince hdata
  have hfound := halone.findFile_eq []
  have htenant := tenant_of_findFile (reachable_foldl (handedOn fill ws.reverse)) hfound
  have hoff : (BitVec.ofNat 32 q).toNat = q := by
    exact Nat.mod_eq_of_lt (by unfold ramfsMaxSize at hlow; omega)
  have hsum : (BitVec.ofNat 32 q + 1).toNat = q + 1 := by
    rw [BitVec.toNat_add_of_lt] <;> rw [hoff]
    · rfl
    unfold ramfsMaxSize at hlow
    simp only [BitVec.reduceToNat]
    omega
  have hone : readBytes (highestEnd ws)
      (((handedOn fill ws.reverse).foldl react bootState).store.data 0) 1 (BitVec.ofNat 32 q) =
      [fill] := by
    rw [readBytes, hoff, if_neg (by omega), readStop, hsum, if_neg (by omega),
      Nat.add_sub_cancel_left]
    simp only [List.range_one, List.map_cons, List.map_nil, Nat.add_zero, hdata q hlow hgap]
  rw [(ramfsRead_found hfound 16 1 (BitVec.ofNat 32 q)).2, htenant.size, hsince,
    hone]
  rfl

/-- Any two files with these writes since their creation read the same, in any runs. -/
def Determines (ws : List Write) : Prop :=
  ∀ s s', machine.Reachable s → machine.Reachable s' → ∀ m p p' i i',
    (findFile s.store.toDirectory p m).value = some i →
    (findFile s'.store.toDirectory p' m).value = some i' →
    s.since i = ws → s'.since i' = ws → ReadsAgree s.store s'.store m p p'

/-- Two runs that make the same calls, perhaps with other contents before a file is created: once
these writes have been made to the file, it reads the same in both. -/
def Forgets (ws : List Write) : Prop :=
  ∀ s, machine.init s → ∀ before before' later m p i, List.Forall₂ SameCall before before' →
    filled (before.foldl react s).store.toDirectory m p = some i →
    ∀ t t', t = (before ++ Event.create m p :: later).foldl react s →
      t' = (before' ++ Event.create m p :: later).foldl react s → t.since i = ws →
      ∀ m' q, (findFile t.store.toDirectory q m').value = some i →
        ReadsAgree t.store t'.store m' q q

lemma Determines.of_covered (hcovered : Covered ws) : Determines ws := by
  intro s s' hreach hreach' m p p' i i' hfound hfound' hsince hsince'
  exact readsAgree_of_covered hreach hreach' hfound hfound' (hsince.trans hsince'.symm)
    (hsince.symm ▸ hcovered)

lemma Determines.forgets (h : Determines ws) : Forgets ws := by
  rintro s hinit before before' later m p i hcalls hfilled t t' rfl rfl hsince m' q hfound
  have hreach : ∀ es : List Event, machine.Reachable (es.foldl react s) := fun es =>
    ⟨s, es, hinit, Machine.run_foldl (M := machine) (fun _ _ => trivial) s es⟩
  have halike : Alike i ((before ++ Event.create m p :: later).foldl react s)
      ((before' ++ Event.create m p :: later).foldl react s) := by
    rw [List.foldl_append, List.foldl_append, List.foldl_cons, List.foldl_cons]
    exact (alike_of_filled (directory_run rfl hcalls) hfilled).run later
  exact h _ _ (hreach _) (hreach _) m' q q i i hfound (halike.directory ▸ hfound) hsince
    (halike.since.symm.trans hsince)

lemma Forgets.covered (hws : ∀ w ∈ ws, Fits w) (h : Forgets ws) : Covered ws := by
  have hrev : ∀ w ∈ ws.reverse, Fits w := fun w hw => hws w (List.mem_reverse.mp hw)
  obtain ⟨hvacant, _⟩ := formerTenant_run init_bootState 0
  obtain ⟨hnone, hfree⟩ := hvacant.lookup (tape []) 0
  obtain ⟨halone, hsince, _⟩ := handedOn_run init_bootState 0 hrev
  rw [List.reverse_reverse] at hsince
  have hagree : ReadsAgree ((handedOn 0 ws.reverse).foldl react bootState).store
      ((handedOn 1 ws.reverse).foldl react bootState).store (tape []) 0 0 := by
    refine h bootState init_bootState (formerTenant 0) (formerTenant 1) (ws.reverse.map writeOf)
      (tape []) 0 0 (sameCall_formerTenant 0 1) ?_ _ _ rfl rfl hsince (tape []) 0
      (halone.findFile_eq [])
    simp only [filled, hnone, hfree]
  intro q hq
  by_contra hgap
  have hnone : lastByte ws q = none := by simpa using hgap
  have hmem := congrFun (hagree 16 1 (BitVec.ofNat 32 q)).2 16
  rw [handedOn_shows ws hws hq hnone 0, handedOn_shows ws hws hq hnone 1] at hmem
  exact absurd hmem (by decide)

/-- What a file reads as is determined by the writes to it since its creation, and reading it
tells nothing of earlier contents, exactly when these writes leave no gap. -/
theorem deleted_data_gone_iff {ws : List Write} (hws : ∀ w ∈ ws, Fits w) :
  (Determines ws ↔ Covered ws) ∧ (Forgets ws ↔ Covered ws) :=
  ⟨⟨fun h => h.forgets.covered hws, .of_covered⟩,
    ⟨fun h => h.covered hws, fun hcovered => (Determines.of_covered hcovered).forgets⟩⟩

theorem deleted_data_gone_appended :
  Determines [⟨1, [7, 8]⟩, ⟨0, [5, 6]⟩] ∧ Forgets [⟨1, [7, 8]⟩, ⟨0, [5, 6]⟩] := by
  have hcovered : Covered [⟨1, [7, 8]⟩, ⟨0, [5, 6]⟩] := by decide
  have hfits : ∀ w ∈ [(⟨1, [7, 8]⟩ : Write), ⟨0, [5, 6]⟩], Fits w := by decide
  exact ⟨(deleted_data_gone_iff hfits).1.mpr hcovered, (deleted_data_gone_iff hfits).2.mpr hcovered⟩

/-- A byte is written at position 3 of a new file; reading its first byte shows what a
deleted file held there. -/
theorem gap_shows_deleted_data : List.Forall₂ SameCall (formerTenant 65) (formerTenant 66) ∧
    (ramfsRead ((handedOn 65 [⟨3, [1]⟩]).foldl react bootState).store 0 16 1 0 (tape [])).mem 16 =
      65 ∧
    (ramfsRead ((handedOn 66 [⟨3, [1]⟩]).foldl react bootState).store 0 16 1 0 (tape [])).mem 16 =
      66 :=
  ⟨sameCall_formerTenant 65 66,
    handedOn_shows [⟨3, [1]⟩] (by decide) (q := 0) (by decide) (by decide) 65,
    handedOn_shows [⟨3, [1]⟩] (by decide) (q := 0) (by decide) (by decide) 66⟩

end Aeos.Ramfs.Slots
