/-
# The block requests of a call

The calls of the filesystem once more, each together with the requests it passes to the
block driver: every `vblk_read` and `vblk_write` with its LBA and its count.
-/

import Aeos.Afs.Remount
import Aeos.Lib.Buffers

namespace Aeos.Afs

open Lib Function

/-- What `vblk_read` and `vblk_write` are called with. -/
structure Request where
  lba : Nat
  count : Nat
  deriving DecidableEq

namespace Requests

open LogM

def rdSectors (lba : Nat) (buf : Nat → UInt8) (n : Nat) : LogM Fs Request (Bool × (Nat → UInt8)) :=
  ask (fun fs => ⟨u32 (fs.ram.base + lba), n⟩) fun fs =>
    let r := Afs.rdSectors fs lba buf n
    ((r.1, r.2.1), r.2.2)

def wrSectors (lba : Nat) (buf : Nat → UInt8) (n : Nat) : LogM Fs Request Bool :=
  ask (fun fs => ⟨u32 (fs.ram.base + lba), n⟩) fun fs => Afs.wrSectors fs lba buf n

def dirLoad : LogM Fs Request (Option Dir) := do
  match ← rdSectors afsDirLba (fun _ => 0) 1 with
  | (true, buf) => pure (some (dirDecode buf))
  | (false, _) => pure none

def dirFlush (d : Dir) : LogM Fs Request Bool := wrSectors afsDirLba (dirEncode d) 1

def afsMount : LogM Fs Request Bool := do
  let fs ← get
  if fs.dev.sectors = 0 then pure false
  else
    match ← rdSectors afsSbLba (fs.ram.iobuf 0) 1 with
    | (false, _) => pure false
    | (true, buf) => do
        modify fun fs => fs.setBuf 0 buf
        let sb := sbDecode buf
        if !sb.valid then pure false
        else
          let d ← dirLoad
          modify fun fs =>
            { fs with
              ram :=
                { fs.ram with
                  totalSectors := sb.totalSectors
                  dataLba := sb.dataStartLba
                  nextFreeLba :=
                    match d with
                    | some d => resumeLba sb.dataStartLba d
                    | none => sb.dataStartLba
                  mounted := true } }
          pure true

def afsFormat : LogM Fs Request Bool := do
  let fs ← get
  if fs.dev.sectors = 0 then pure false
  else
    let sb := freshSuperblock fs.dev.sectors
    let buf := sbEncode sb
    modify fun fs =>
      { fs with ram := { fs.ram with iobuf := update (fun _ _ => 0) 0 buf } }
    match ← wrSectors afsSbLba buf 1 with
    | false => pure false
    | true => do
        match ← dirFlush fun _ => Dirent.zero with
        | false => pure false
        | true => do
            modify fun fs =>
              { fs with
                ram :=
                  { fs.ram with
                    totalSectors := sb.totalSectors
                    dataLba := sb.dataStartLba
                    nextFreeLba := sb.dataStartLba
                    mounted := true } }
            pure true

def writeChunk (lba : Nat) (data : List UInt8) (n : Nat) : LogM Fs Request Bool := do
  let fs ← get
  let off := n * chunkSize
  let chunk := min (data.length - off) chunkSize
  let slot := n % iobufSlots
  let buf := overwrite (fs.ram.iobuf slot) 0 chunk fun j => data.getD (off + j) 0
  let sec := (chunk + (sectSize - 1)) / sectSize
  modify fun fs => fs.setBuf slot buf
  wrSectors (u32 (lba + off / sectSize)) buf sec

def writeChunks (lba : Nat) (data : List UInt8) : Nat → LogM Fs Request Bool
  | 0 => pure true
  | n + 1 => do
      match ← writeChunks lba data n with
      | false => pure false
      | true => writeChunk lba data n

def commitFile (d : Dir) (name : List UInt8) (len : Nat) : LogM Fs Request (Option Nat) :=
  match findSlot d name false with
  | none => pure none
  | some (i, _) => do
      match ← dirFlush (update d i ((d i).setSize len)) with
      | true => pure (some len)
      | false => pure none

def afsWrite (name data : Option (List UInt8)) : LogM Fs Request (Option Nat) :=
  match name, data with
  | some name, some data => do
      let fs ← get
      if !fs.ram.mounted || data.length = 0 || 1024 * 1024 < data.length then pure none
      else
        match ← dirLoad with
        | none => pure none
        | some d => do
            let fs ← get
            let placed := placeFile fs.ram d name ((data.length + (sectSize - 1)) / sectSize)
            modify fun fs => { fs with ram := placed.2 }
            match placed.1 with
            | none => pure none
            | some (lba, d) => do
                match ← writeChunks lba data (chunksOf data.length) with
                | false => pure none
                | true => commitFile d name data.length
  | _, _ => pure none

def readChunk (lba size n : Nat) : LogM Fs Request (Option (List UInt8)) := do
  let fs ← get
  let done := n * chunkSize
  let chunk := min (size - done) chunkSize
  let slot := (n + 1) % iobufSlots
  let sec := (chunk + (sectSize - 1)) / sectSize
  match ← rdSectors (u32 (lba + done / sectSize)) (fs.ram.iobuf slot) sec with
  | (false, _) => pure none
  | (true, buf) => do
      modify fun fs => fs.setBuf slot buf
      pure (some ((List.range chunk).map buf))

def readChunks (lba size : Nat) : Nat → LogM Fs Request (Option (List UInt8))
  | 0 => pure (some [])
  | n + 1 => do
      match ← readChunks lba size n with
      | none => pure none
      | some out => do
          match ← readChunk lba size n with
          | none => pure none
          | some bytes => pure (some (out ++ bytes))

def afsRead (name : Option (List UInt8)) (buf max : Nat) : LogM Fs Request (Option (List UInt8)) :=
  match name with
  | none => pure none
  | some name => do
      let fs ← get
      if !fs.ram.mounted || buf = 0 || max = 0 then pure none
      else
        match ← dirLoad with
        | none => pure none
        | some d =>
          match findSlot d name false with
          | none => pure none
          | some (i, _) =>
            readChunks (d i).startLba (d i).size (chunksOf (min max (d i).size))

def afsDelete (name : List UInt8) : LogM Fs Request Bool := do
  let fs ← get
  if !fs.ram.mounted then pure false
  else
    match ← dirLoad with
    | none => pure false
    | some d =>
      match findSlot d name false with
      | none => pure false
      | some (i, _) => do
          let nlbas := nlbasOf (d i).size
          modify fun fs =>
            { fs with
              ram :=
                { fs.ram with
                  freeExtents :=
                    if (d i).startLba ≠ 0 ∧ 0 < nlbas then
                      addToFreeList fs.ram.freeExtents (d i).startLba nlbas
                    else fs.ram.freeExtents } }
          dirFlush (update d i Dirent.zero)

/-! ## Without the requests -/

section
variable (fs : Fs)

@[simp]
lemma erase_wrSectors (lba : Nat) (buf : Nat → UInt8) (n : Nat) :
  (wrSectors lba buf n).erase fs = Afs.wrSectors fs lba buf n := rfl

@[simp]
lemma erase_dirFlush (d : Dir) : (dirFlush d).erase fs = Afs.dirFlush fs d := rfl

@[simp]
lemma erase_dirLoad : dirLoad.erase fs = Afs.dirLoad fs := by
  simp only [dirLoad, rdSectors, erase_bind, erase_ask, Afs.dirLoad]
  rcases Afs.rdSectors fs afsDirLba (fun _ => 0) 1 with ⟨ok, buf, fs₁⟩
  cases ok <;> rfl

lemma erase_afsMount : afsMount.erase fs = Afs.afsMount fs := by
  simp only [afsMount, erase_get_bind, Afs.afsMount]
  split_ifs
  · rfl
  simp only [rdSectors, erase_bind, erase_ask]
  rcases Afs.rdSectors fs afsSbLba (fs.ram.iobuf 0) 1 with ⟨ok, buf, fs₁⟩
  cases ok with
  | false => rfl
  | true =>
    simp only [erase_bind]
    split_ifs
    · rfl
    rw [erase_bind, erase_dirLoad, erase_bind, erase_modify, erase_pure]
    rfl

lemma erase_afsFormat : afsFormat.erase fs = Afs.afsFormat fs := by
  simp only [afsFormat, erase_get_bind, Afs.afsFormat]
  split_ifs
  · rfl
  simp only [erase_bind, erase_modify, erase_wrSectors]
  rcases Afs.wrSectors _ afsSbLba (sbEncode (freshSuperblock fs.dev.sectors)) 1 with ⟨ok, fs₁⟩
  cases ok with
  | false => rfl
  | true =>
    simp only [erase_bind, erase_dirFlush]
    rcases Afs.dirFlush fs₁ fun _ => Dirent.zero with ⟨ok, fs₂⟩
    cases ok <;> rfl

@[simp]
lemma erase_writeChunks (lba : Nat) (data : List UInt8) (n : Nat) :
  (writeChunks lba data n).erase fs = Afs.writeChunks fs lba data n := by
  induction n with
  | zero => rfl
  | succ n ih =>
    rw [writeChunks, erase_bind, ih, Afs.writeChunks]
    rcases Afs.writeChunks fs lba data n with ⟨ok, fs₁⟩
    cases ok <;> rfl

lemma erase_commitFile (d : Dir) (name : List UInt8) (len : Nat) :
  (commitFile d name len).erase fs = Afs.commitFile fs d name len := by
  rw [commitFile, Afs.commitFile]
  cases findSlot d name false with
  | none => rfl
  | some found =>
    obtain ⟨i, _⟩ := found
    simp only [erase_bind, erase_dirFlush]
    rcases Afs.dirFlush fs (update d i ((d i).setSize len)) with ⟨ok, fs₁⟩
    cases ok <;> rfl

lemma erase_afsWrite (name data : Option (List UInt8)) :
  (afsWrite name data).erase fs = Afs.afsWrite fs name data := by
  cases name with
  | none => rfl
  | some name =>
    cases data with
    | none => rfl
    | some data =>
      simp only [afsWrite, erase_get_bind, Afs.afsWrite]
      split_ifs
      · rfl
      simp only [erase_bind, erase_dirLoad]
      rcases Afs.dirLoad fs with ⟨d, fs₁⟩
      cases d with
      | none => rfl
      | some d =>
        simp only [erase_get_bind]
        simp only [erase_bind, erase_modify]
        rcases placeFile fs₁.ram d name ((data.length + (sectSize - 1)) / sectSize) with
          ⟨placed, ram⟩
        cases placed with
        | none => rfl
        | some placed =>
          obtain ⟨lba, d'⟩ := placed
          simp only [erase_bind, erase_writeChunks]
          rcases Afs.writeChunks { fs₁ with ram := ram } lba data
            (chunksOf data.length) with ⟨ok, fs₂⟩
          cases ok with
          | false => rfl
          | true => exact erase_commitFile fs₂ d' name data.length

lemma erase_readInto (lba : Nat) (buf : Nat → UInt8) (sec slot chunk : Nat) : (do
    match ← rdSectors lba buf sec with
    | (false, _) => pure none
    | (true, buf) => do
        modify fun fs => fs.setBuf slot buf
        pure (some ((List.range chunk).map buf)) :
    LogM Fs Request (Option (List UInt8))).erase fs =
  match Afs.rdSectors fs lba buf sec with
  | (false, _, fs) => (none, fs)
  | (true, buf, fs) => (some ((List.range chunk).map buf), fs.setBuf slot buf) := by
  simp only [rdSectors, erase_bind, erase_ask]
  rcases Afs.rdSectors fs lba buf sec with ⟨ok, buf', fs₁⟩
  cases ok <;> rfl

lemma erase_readChunk (lba size n : Nat) :
  (readChunk lba size n).erase fs = Afs.readChunk fs lba size n :=
  erase_readInto fs _ _ _ _ _

@[simp]
lemma erase_readChunks (lba size n : Nat) :
  (readChunks lba size n).erase fs = Afs.readChunks fs lba size n := by
  induction n with
  | zero => rfl
  | succ n ih =>
    rw [readChunks, erase_bind, ih, Afs.readChunks]
    rcases Afs.readChunks fs lba size n with ⟨out, fs₁⟩
    cases out with
    | none => rfl
    | some out =>
      simp only [erase_bind, erase_readChunk]
      rcases Afs.readChunk fs₁ lba size n with ⟨bytes, fs₂⟩
      cases bytes <;> rfl

lemma erase_afsRead (name : Option (List UInt8)) (buf max : Nat) :
  (afsRead name buf max).erase fs = Afs.afsRead fs name buf max := by
  cases name with
  | none => rfl
  | some name =>
    simp only [afsRead, erase_get_bind, Afs.afsRead]
    split_ifs
    · rfl
    simp only [erase_bind, erase_dirLoad]
    rcases Afs.dirLoad fs with ⟨d, fs₁⟩
    cases d with
    | none => rfl
    | some d =>
      dsimp only
      cases findSlot d name false with
      | none => rfl
      | some found => exact erase_readChunks fs₁ _ _ _

lemma erase_afsDelete (name : List UInt8) : (afsDelete name).erase fs = Afs.afsDelete fs name := by
  simp only [afsDelete, erase_get_bind, Afs.afsDelete]
  split_ifs
  · rfl
  simp only [erase_bind, erase_dirLoad]
  rcases Afs.dirLoad fs with ⟨d, fs₁⟩
  cases d with
  | none => rfl
  | some d =>
    dsimp only
    cases findSlot d name false with
    | none => rfl
    | some found => rfl

end

/-! ## What a call asks for -/

section
variable {P : Request → Prop} {fs : Fs}

lemma logs_rdSectors (lba : Nat) (buf : Nat → UInt8) (n : Nat) :
  Logs P (rdSectors lba buf n) fs ↔ P ⟨u32 (fs.ram.base + lba), n⟩ := logs_ask _ _

lemma logs_wrSectors (lba : Nat) (buf : Nat → UInt8) (n : Nat) :
  Logs P (wrSectors lba buf n) fs ↔ P ⟨u32 (fs.ram.base + lba), n⟩ := logs_ask _ _

lemma logs_dirLoad (h : P ⟨u32 (fs.ram.base + afsDirLba), 1⟩) : Logs P dirLoad fs := by
  refine (logs_bind _ _).mpr ⟨(logs_rdSectors _ _ _).mpr h, ?_⟩
  split <;> exact logs_pure _

lemma logs_dirFlush (d : Dir) (h : P ⟨u32 (fs.ram.base + afsDirLba), 1⟩) :
  Logs P (dirFlush d) fs := (logs_wrSectors _ _ _).mpr h

section
variable (hsb : fs.dev.sectors ≠ 0 → P ⟨u32 (fs.ram.base + afsSbLba), 1⟩)
include hsb

lemma logs_afsMount (hdir : fs.dev.sectors ≠ 0 → P ⟨u32 (fs.ram.base + afsDirLba), 1⟩) :
    Logs P afsMount fs := by
  rw [afsMount, logs_get_bind]
  split_ifs with hsectors
  · exact logs_pure _
  refine (logs_bind _ _).mpr ⟨(logs_rdSectors _ _ _).mpr (hsb hsectors), ?_⟩
  split
  · exact logs_pure _
  refine (logs_bind _ _).mpr ⟨logs_modify _, ?_⟩
  dsimp only
  split_ifs
  · exact logs_pure _
  refine (logs_bind _ _).mpr ⟨logs_dirLoad (hdir hsectors), ?_⟩
  exact (logs_bind _ _).mpr ⟨logs_modify _, logs_pure _⟩

lemma logs_afsFormat (hdir : fs.dev.sectors ≠ 0 → P ⟨u32 (fs.ram.base + afsDirLba), 1⟩) :
  Logs P afsFormat fs := by
  rw [afsFormat, logs_get_bind]
  split_ifs with hsectors
  · exact logs_pure _
  refine (logs_bind _ _).mpr ⟨logs_modify _, ?_⟩
  refine (logs_bind _ _).mpr ⟨(logs_wrSectors _ _ _).mpr (hsb hsectors), ?_⟩
  split
  · exact logs_pure _
  refine (logs_bind _ _).mpr ⟨logs_dirFlush _ (hdir hsectors), ?_⟩
  split
  · exact logs_pure _
  · exact (logs_bind _ _).mpr ⟨logs_modify _, logs_pure _⟩

end

lemma logs_writeChunks {lba : Nat} {data : List UInt8} (n : Nat) (hn : n ≤ chunksOf data.length)
  (h : ∀ k < n, P ⟨u32 (fs.ram.base + u32 (lba + 8 * k)), sectorsFor (chunkLen data.length k)⟩) :
  Logs P (writeChunks lba data n) fs := by
  induction n with
  | zero => exact logs_pure _
  | succ n ih =>
    have hn' := lt_chunksOf_iff.mp (Nat.lt_of_succ_le hn)
    have hbase := base_of_volume (writeChunks_volume fs lba data n)
    have hlast := h n (Nat.lt_succ_self n)
    rw [← (chunk_sectors hn').2.1] at hlast
    rw [writeChunks, logs_bind, erase_writeChunks]
    refine ⟨ih (Nat.le_of_succ_le hn) fun k hk => h k (Nat.lt_succ_of_lt hk), ?_⟩
    rcases hloop : Afs.writeChunks fs lba data n with ⟨ok, fs₁⟩
    rw [hloop] at hbase
    cases ok with
    | false => exact logs_pure _
    | true =>
      rw [← hbase] at hlast
      rw [writeChunk, logs_get_bind]
      exact (logs_bind _ _).mpr ⟨logs_modify _, (logs_wrSectors _ _ _).mpr hlast⟩

lemma logs_readChunks {lba size : Nat} (n : Nat) (hn : n ≤ chunksOf size)
  (h : ∀ k < n, P ⟨u32 (fs.ram.base + u32 (lba + 8 * k)), sectorsFor (chunkLen size k)⟩) :
  Logs P (readChunks lba size n) fs := by
  induction n with
  | zero => exact logs_pure _
  | succ n ih =>
    have hn' := lt_chunksOf_iff.mp (Nat.lt_of_succ_le hn)
    have hbase := base_of_volume (volume_of_meta (readChunks_readOnly fs lba size n).meta)
    have hlast := h n (Nat.lt_succ_self n)
    rw [← (chunk_sectors hn').2.1] at hlast
    rw [readChunks, logs_bind, erase_readChunks]
    refine ⟨ih (Nat.le_of_succ_le hn) fun k hk => h k (Nat.lt_succ_of_lt hk), ?_⟩
    rcases hloop : Afs.readChunks fs lba size n with ⟨out, fs₁⟩
    rw [hloop] at hbase
    cases out with
    | none => exact logs_pure _
    | some out =>
      rw [← hbase] at hlast
      refine (logs_bind _ _).mpr ⟨?_, ?_⟩
      · rw [readChunk, logs_get_bind]
        refine (logs_bind _ _).mpr ⟨(logs_rdSectors _ _ _).mpr hlast, ?_⟩
        split
        · exact logs_pure _
        · exact (logs_bind _ _).mpr ⟨logs_modify _, logs_pure _⟩
      · split <;> exact logs_pure _

lemma logs_afsWrite (name data : Option (List UInt8))
  (hdir : fs.ram.mounted = true → P ⟨u32 (fs.ram.base + afsDirLba), 1⟩)
  (hdata : ∀ name' bytes lba d ram, name = some name' → data = some bytes → Writable fs bytes →
    placeFile fs.ram fs.dir name' (sectorsFor bytes.length) = (some (lba, d), ram) →
    ∀ k < chunksOf bytes.length,
      P ⟨u32 (fs.ram.base + u32 (lba + 8 * k)), sectorsFor (chunkLen bytes.length k)⟩) :
  Logs P (afsWrite name data) fs := by
  cases name with
  | none => exact logs_pure _
  | some name =>
    cases data with
    | none => exact logs_pure _
    | some bytes =>
      by_cases hargs : Writable fs bytes
      swap
      · rw [afsWrite, logs_get_bind, afsWrite_guard, decide_eq_false hargs]
        exact logs_pure _
      have hask := hdir hargs.1
      simp only [afsWrite, logs_get_bind, afsWrite_guard, decide_eq_true hargs, Bool.not_true,
        Bool.false_eq_true, if_false]
      rw [logs_bind, erase_dirLoad, dirLoad_eq]
      refine ⟨logs_dirLoad hask, ?_⟩
      split_ifs
      · exact logs_pure _
      rw [logs_get_bind]
      refine (logs_bind _ _).mpr ⟨logs_modify _, ?_⟩
      have hvolume := placeFile_volume fs.ram fs.dir name (sectorsFor bytes.length)
      have hchunks := fun lba d ram hplace =>
        hdata name bytes lba d ram rfl rfl hargs hplace
      show Logs P (match (placeFile fs.ram fs.dir name (sectorsFor bytes.length)).1 with
        | none => pure none
        | some (lba, d) => _) { fs.counted with
          ram := (placeFile fs.ram fs.dir name (sectorsFor bytes.length)).2 }
      generalize placeFile fs.ram fs.dir name (sectorsFor bytes.length) = result
        at hvolume hchunks ⊢
      obtain ⟨placed, ram⟩ := result
      cases placed with
      | none => exact logs_pure _
      | some placed =>
        obtain ⟨lba, d⟩ := placed
        have hbase : ram.base = fs.ram.base := congrArg (fun v => v.2.2.2) hvolume
        have hloop : ∀ k < chunksOf bytes.length,
            P ⟨u32 (ram.base + u32 (lba + 8 * k)), sectorsFor (chunkLen bytes.length k)⟩ := by
          rw [hbase]
          exact hchunks lba d ram rfl
        rw [logs_bind, erase_writeChunks]
        refine ⟨logs_writeChunks _ le_rfl hloop, ?_⟩
        have hkept := writeChunks_volume { fs.counted with ram := ram } lba bytes
          (chunksOf bytes.length)
        generalize Afs.writeChunks { fs.counted with ram := ram } lba bytes
          (chunksOf bytes.length) = done at hkept ⊢
        obtain ⟨ok, fs₁⟩ := done
        cases ok with
        | false => exact logs_pure _
        | true =>
          have hsame := (base_of_volume hkept).trans hbase
          rw [← hsame] at hask
          dsimp only
          rw [commitFile]
          split
          · exact logs_pure _
          refine (logs_bind _ _).mpr ⟨logs_dirFlush _ hask, ?_⟩
          split <;> exact logs_pure _

lemma logs_afsRead (name : Option (List UInt8)) (buf max : Nat)
  (hdir : fs.ram.mounted = true → P ⟨u32 (fs.ram.base + afsDirLba), 1⟩)
  (hdata : fs.ram.mounted = true → ∀ i, (fs.dir i).Live → ∀ k < chunksOf (fs.dir i).size,
    P ⟨u32 (fs.ram.base + u32 ((fs.dir i).startLba + 8 * k)),
      sectorsFor (chunkLen (fs.dir i).size k)⟩) : Logs P (afsRead name buf max) fs := by
  cases name with
  | none => exact logs_pure _
  | some name =>
    rw [afsRead, logs_get_bind]
    split_ifs with hargs
    · exact logs_pure _
    have hmounted : fs.ram.mounted = true := by
      simp only [Bool.or_eq_true, not_or, Bool.not_eq_true', Bool.not_eq_false] at hargs
      exact hargs.1.1
    rw [logs_bind, erase_dirLoad, dirLoad_eq]
    refine ⟨logs_dirLoad (hdir hmounted), ?_⟩
    split_ifs
    · exact logs_pure _
    dsimp only
    rw [findSlot_false]
    cases hfound : findName fs.dir name with
    | none => exact logs_pure _
    | some i =>
      have hle : chunksOf (min max (fs.dir i).size) ≤ chunksOf (fs.dir i).size :=
        Nat.div_le_div_right (Nat.add_le_add_right (min_le_right _ _) _)
      have hall := hdata hmounted i (findName_some hfound).1
      exact logs_readChunks _ hle fun k hk => hall k (hk.trans_le hle)

lemma logs_afsDelete (name : List UInt8)
  (hdir : fs.ram.mounted = true → P ⟨u32 (fs.ram.base + afsDirLba), 1⟩) :
  Logs P (afsDelete name) fs := by
  rw [afsDelete, logs_get_bind]
  split_ifs with hargs
  · exact logs_pure _
  have hask := hdir (by simpa using hargs)
  rw [logs_bind, erase_dirLoad, dirLoad_eq]
  refine ⟨logs_dirLoad hask, ?_⟩
  split_ifs
  · exact logs_pure _
  dsimp only
  split
  · exact logs_pure _
  · exact (logs_bind _ _).mpr ⟨logs_modify _, logs_dirFlush _ hask⟩

end
end Requests
end Aeos.Afs
