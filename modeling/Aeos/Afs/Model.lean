/-
# AEOS-FS

The filesystem of `kernel/afs.c` over the block driver: a superblock, one directory sector with
sixteen entries, and file data in contiguous extents; the bump pointer and the list of freed
extents live in RAM only.

Every function reloads the directory, so the directory buffer is a local value here. The payload
buffers are kept: a short last sector is written out with whatever its buffer held before.
-/

import Aeos.Lib.CString
import Aeos.Lib.Extent

namespace Aeos.Afs

open Lib Function

def sectSize : Nat := 512

def afsNameLen : Nat := 24

def afsMaxFiles : Nat := 16

def afsMaxFreeExtents : Nat := 32

def afsBaseLba : Nat := 8192

def afsMagic : Nat := 0x31534645

def afsSbLba : Nat := 0

def afsDirLba : Nat := 1

def chunkSize : Nat := 4096

def iobufSlots : Nat := 4

def nlbasOf (size : Nat) : Nat := u32 (size + (sectSize - 1)) / sectSize

/-! ## The block device -/

structure Device where
  sectors : Nat
  data : Nat → UInt8
  fault : Nat → Bool
  reqs : Nat

def Device.refuses (dev : Device) (lba count : Nat) : Bool :=
  dev.fault dev.reqs || decide (dev.sectors < lba + count)

def vblkRead (dev : Device) (lba : Nat) (buf : Nat → UInt8) (count : Nat) :
  Bool × (Nat → UInt8) × Device :=
  if count = 0 then (true, buf, dev)
  else if dev.refuses lba count then (false, buf, { dev with reqs := dev.reqs + 1 })
  else
    (true, overwrite buf 0 (count * sectSize) fun j => dev.data (lba * sectSize + j),
      { dev with reqs := dev.reqs + 1 })

def vblkWrite (dev : Device) (lba : Nat) (buf : Nat → UInt8) (count : Nat) : Bool × Device :=
  if count = 0 then (true, dev)
  else if dev.refuses lba count then (false, { dev with reqs := dev.reqs + 1 })
  else
    (true,
      { dev with
        data := overwrite dev.data (lba * sectSize) (count * sectSize) buf
        reqs := dev.reqs + 1 })

/-! ## On-disk structures -/

@[ext]
structure Dirent where
  name : List UInt8
  /-- `0` marks a free entry. -/
  startLba : Nat
  size : Nat
  name_length : name.length = afsNameLen
  startLba_lt : startLba < 2 ^ 32
  size_lt : size < 2 ^ 32

def Dirent.setStart (e : Dirent) (lba : Nat) : Dirent :=
  { e with startLba := u32 lba, startLba_lt := u32_lt lba }

def Dirent.setSize (e : Dirent) (size : Nat) : Dirent :=
  { e with size := u32 size, size_lt := u32_lt size }

def nameField (name : List UInt8) : List UInt8 :=
  let text := (cstr name).take (afsNameLen - 1)
  text ++ List.replicate (afsNameLen - text.length) 0

lemma nameField_length (name : List UInt8) : (nameField name).length = afsNameLen := by
  simp [nameField, afsNameLen]

def Dirent.fresh (name : List UInt8) : Dirent where
  name := nameField name
  startLba := 0
  size := 0
  name_length := nameField_length name
  startLba_lt := by decide
  size_lt := by decide

def Dirent.zero : Dirent := Dirent.fresh []

abbrev Dir := Fin afsMaxFiles → Dirent

def dirDecode (b : Nat → UInt8) : Dir := fun i =>
  { name := List.ofFn fun j : Fin afsNameLen => b (32 * i + j)
    startLba := leWord b (32 * i + 24)
    size := leWord b (32 * i + 28)
    name_length := List.length_ofFn
    startLba_lt := leWord_lt _ _
    size_lt := leWord_lt _ _ }

def Dirent.byte (e : Dirent) (j : Nat) : UInt8 :=
  if j < 24 then e.name.getD j 0
  else if j < 28 then leByte e.startLba (j - 24)
  else leByte e.size (j - 28)

def dirEncode (d : Dir) : Nat → UInt8 := fun a =>
  if h : a / 32 < afsMaxFiles then (d ⟨a / 32, h⟩).byte (a % 32) else 0

structure Superblock where
  magic : Nat
  version : Nat
  totalSectors : Nat
  dataStartLba : Nat
  deriving DecidableEq

def sbDecode (b : Nat → UInt8) : Superblock :=
  ⟨leWord b 0, leWord b 4, leWord b 8, leWord b 12⟩

def Superblock.word (sb : Superblock) : Nat → Nat
  | 0 => sb.magic
  | 1 => sb.version
  | 2 => sb.totalSectors
  | _ => sb.dataStartLba

def sbEncode (sb : Superblock) : Nat → UInt8 := fun a =>
  if a < 16 then leByte (sb.word (a / 4)) (a % 4) else 0

def Superblock.valid (sb : Superblock) : Bool := sb.magic = afsMagic ∧ sb.version = 1

/-! ## State in RAM -/

structure Ram where
  mounted : Bool
  totalSectors : Nat
  dataLba : Nat
  nextFreeLba : Nat
  base : Nat
  /-- `free_extents[0 .. free_extent_count)`. -/
  freeExtents : List Extent
  /-- The payload buffers, by slot and offset. -/
  iobuf : Nat → Nat → UInt8

def Ram.boot : Ram where
  mounted := false
  totalSectors := 0
  dataLba := 0
  nextFreeLba := 0
  base := afsBaseLba
  freeExtents := []
  iobuf := fun _ _ => 0

structure Fs where
  ram : Ram
  dev : Device

def rdSectors (fs : Fs) (lba : Nat) (buf : Nat → UInt8) (n : Nat) : Bool × (Nat → UInt8) × Fs :=
  let r := vblkRead fs.dev (u32 (fs.ram.base + lba)) buf n
  (r.1, r.2.1, { fs with dev := r.2.2 })

def wrSectors (fs : Fs) (lba : Nat) (buf : Nat → UInt8) (n : Nat) : Bool × Fs :=
  let r := vblkWrite fs.dev (u32 (fs.ram.base + lba)) buf n
  (r.1, { fs with dev := r.2 })

def Fs.setBuf (fs : Fs) (slot : Nat) (buf : Nat → UInt8) : Fs :=
  { fs with ram := { fs.ram with iobuf := update fs.ram.iobuf slot buf } }

def dirLoad (fs : Fs) : Option Dir × Fs :=
  match rdSectors fs afsDirLba (fun _ => 0) 1 with
  | (true, buf, fs) => (some (dirDecode buf), fs)
  | (false, _, fs) => (none, fs)

def dirFlush (fs : Fs) (d : Dir) : Bool × Fs := wrSectors fs afsDirLba (dirEncode d) 1

/-! ## Free extents -/

def allocFromFreeList (l : List Extent) (nlbas : Nat) : Nat × List Extent :=
  match l.span fun e => e.count < nlbas with
  | (_, []) => (0, l)
  | (before, e :: after) =>
    let rest : Extent := ⟨u32 (e.start + nlbas), e.count - nlbas⟩
    let l := before ++ rest :: after
    (e.start, if rest.count = 0 then swapRemove l before.length else l)

def addToFreeList (l : List Extent) (startLba count : Nat) : List Extent :=
  if afsMaxFreeExtents ≤ l.length then l else l ++ [⟨startLba, count⟩]

/-! ## Mount and format -/

def Dirent.endLba (e : Dirent) : Nat := u32 (e.startLba + nlbasOf e.size)

def resumeStep (d : Dir) (next : Nat) (i : Fin afsMaxFiles) : Nat :=
  if (d i).startLba = 0 then next
  else if next < (d i).endLba then (d i).endLba else next

def resumeLba (start : Nat) (d : Dir) : Nat :=
  (List.finRange afsMaxFiles).foldl (resumeStep d) start

def afsMount (fs : Fs) : Bool × Fs :=
  if fs.dev.sectors = 0 then (false, fs)
  else
    match rdSectors fs afsSbLba (fs.ram.iobuf 0) 1 with
    | (false, _, fs) => (false, fs)
    | (true, buf, fs) =>
      let fs := fs.setBuf 0 buf
      let sb := sbDecode buf
      if !sb.valid then (false, fs)
      else
        let loaded := dirLoad fs
        (true,
          { loaded.2 with
            ram :=
              { loaded.2.ram with
                totalSectors := sb.totalSectors
                dataLba := sb.dataStartLba
                nextFreeLba :=
                  match loaded.1 with
                  | some d => resumeLba sb.dataStartLba d
                  | none => sb.dataStartLba
                mounted := true } })

def freshSuperblock (sectors : Nat) : Superblock :=
  ⟨afsMagic, 1, u32 sectors, 2⟩

def afsFormat (fs : Fs) : Bool × Fs :=
  if fs.dev.sectors = 0 then (false, fs)
  else
    let sb := freshSuperblock fs.dev.sectors
    let buf := sbEncode sb
    let fs : Fs :=
      { fs with ram := { fs.ram with iobuf := update (fun _ _ => 0) 0 buf } }
    match wrSectors fs afsSbLba buf 1 with
    | (false, fs) => (false, fs)
    | (true, fs) =>
      match dirFlush fs fun _ => Dirent.zero with
      | (false, fs) => (false, fs)
      | (true, fs) =>
        (true,
          { fs with
            ram :=
              { fs.ram with
                totalSectors := sb.totalSectors
                dataLba := sb.dataStartLba
                nextFreeLba := sb.dataStartLba
                mounted := true } })

/-! ## Lookup -/

def fnameEq : List UInt8 → List UInt8 → Bool
  | [], [] => true
  | [], b :: _ => b = 0
  | a :: _, [] => a = 0
  | a :: as, b :: bs => if a ≠ 0 ∧ b ≠ 0 ∧ a = b then fnameEq as bs else a = b

/-- The first entry in use with this name. -/
def findName (d : Dir) (name : List UInt8) : Option (Fin afsMaxFiles) :=
  (List.finRange afsMaxFiles).find? fun i => (d i).startLba ≠ 0 ∧ fnameEq (d i).name name

def findSlot (d : Dir) (name : List UInt8) (create : Bool) : Option (Fin afsMaxFiles × Dir) :=
  match findName d name with
  | some i => some (i, d)
  | none =>
    if !create then none
    else
      match (List.finRange afsMaxFiles).find? fun i => (d i).startLba = 0 with
      | none => none
      | some i => some (i, update d i (Dirent.fresh name))

/-! ## Write -/

def allocSectors (ram : Ram) (nlbas : Nat) : Option Nat × Ram :=
  let reused := allocFromFreeList ram.freeExtents nlbas
  let ram := { ram with freeExtents := reused.2 }
  if reused.1 ≠ 0 then (some reused.1, ram)
  else
    let lba := ram.nextFreeLba
    if ram.totalSectors < u32 (lba + nlbas) then (none, ram)
    else (some lba, { ram with nextFreeLba := u32 (lba + nlbas) })

/-- Where `afs_write` puts the data: in place if the extent still fits, else in new sectors. Gives
the first sector and the directory with the entry committed early. -/
def placeFile (ram : Ram) (d : Dir) (name : List UInt8) (nlbas : Nat) : Option (Nat × Dir) × Ram :=
  let inPlace :=
    match findSlot d name false with
    | some (i, _) => if nlbas ≤ nlbasOf (d i).size then some (d i).startLba else none
    | none => none
  match inPlace with
  | some lba => (some (lba, d), ram)
  | none =>
    match findSlot d name true with
    | none => (none, ram)
    | some (i, d) =>
      match allocSectors ram nlbas with
      | (none, ram) => (none, ram)
      | (some lba, ram) => (some (lba, update d i ((d i).setStart lba)), ram)

def writeChunk (fs : Fs) (lba : Nat) (data : List UInt8) (n : Nat) : Bool × Fs :=
  let off := n * chunkSize
  let chunk := min (data.length - off) chunkSize
  let slot := n % iobufSlots
  let buf := overwrite (fs.ram.iobuf slot) 0 chunk fun j => data.getD (off + j) 0
  let sec := (chunk + (sectSize - 1)) / sectSize
  wrSectors (fs.setBuf slot buf) (u32 (lba + off / sectSize)) buf sec

def writeChunks (fs : Fs) (lba : Nat) (data : List UInt8) : Nat → Bool × Fs
  | 0 => (true, fs)
  | n + 1 =>
    match writeChunks fs lba data n with
    | (false, fs) => (false, fs)
    | (true, fs) => writeChunk fs lba data n

def chunksOf (len : Nat) : Nat := (len + (chunkSize - 1)) / chunkSize

def commitFile (fs : Fs) (d : Dir) (name : List UInt8) (len : Nat) : Option Nat × Fs :=
  match findSlot d name false with
  | none => (none, fs)
  | some (i, _) =>
    match dirFlush fs (update d i ((d i).setSize len)) with
    | (true, fs) => (some len, fs)
    | (false, fs) => (none, fs)

/-- `afs_write`; `none` is `-1`. -/
def afsWrite (fs : Fs) (name data : Option (List UInt8)) : Option Nat × Fs :=
  match name, data with
  | some name, some data =>
    if !fs.ram.mounted || data.length = 0 || 1024 * 1024 < data.length then (none, fs)
    else
      match dirLoad fs with
      | (none, fs) => (none, fs)
      | (some d, fs) =>
        match placeFile fs.ram d name ((data.length + (sectSize - 1)) / sectSize) with
        | (none, ram) => (none, { fs with ram := ram })
        | (some (lba, d), ram) =>
          match writeChunks { fs with ram := ram } lba data (chunksOf data.length) with
          | (false, fs) => (none, fs)
          | (true, fs) => commitFile fs d name data.length
  | _, _ => (none, fs)

/-! ## Read and delete -/

def readChunk (fs : Fs) (lba size n : Nat) : Option (List UInt8) × Fs :=
  let done := n * chunkSize
  let chunk := min (size - done) chunkSize
  let slot := (n + 1) % iobufSlots
  let sec := (chunk + (sectSize - 1)) / sectSize
  match rdSectors fs (u32 (lba + done / sectSize)) (fs.ram.iobuf slot) sec with
  | (false, _, fs) => (none, fs)
  | (true, buf, fs) => (some ((List.range chunk).map buf), fs.setBuf slot buf)

def readChunks (fs : Fs) (lba size : Nat) : Nat → Option (List UInt8) × Fs
  | 0 => (some [], fs)
  | n + 1 =>
    match readChunks fs lba size n with
    | (none, fs) => (none, fs)
    | (some out, fs) =>
      match readChunk fs lba size n with
      | (none, fs) => (none, fs)
      | (some bytes, fs) => (some (out ++ bytes), fs)

/-- `afs_read`: the bytes stored through `buf`; `none` is `-1`. The loop stops at the first chunk
at or past `max`. -/
def afsRead (fs : Fs) (name : Option (List UInt8)) (buf max : Nat) : Option (List UInt8) × Fs :=
  match name with
  | none => (none, fs)
  | some name =>
    if !fs.ram.mounted || buf = 0 || max = 0 then (none, fs)
    else
      match dirLoad fs with
      | (none, fs) => (none, fs)
      | (some d, fs) =>
        match findSlot d name false with
        | none => (none, fs)
        | some (i, _) =>
          readChunks fs (d i).startLba (d i).size (chunksOf (min max (d i).size))

def afsDelete (fs : Fs) (name : List UInt8) : Bool × Fs :=
  if !fs.ram.mounted then (false, fs)
  else
    match dirLoad fs with
    | (none, fs) => (false, fs)
    | (some d, fs) =>
      match findSlot d name false with
      | none => (false, fs)
      | some (i, _) =>
        let nlbas := nlbasOf (d i).size
        let free :=
          if (d i).startLba ≠ 0 ∧ 0 < nlbas then
            addToFreeList fs.ram.freeExtents (d i).startLba nlbas
          else fs.ram.freeExtents
        dirFlush { fs with ram := { fs.ram with freeExtents := free } }
          (update d i Dirent.zero)

end Aeos.Afs
