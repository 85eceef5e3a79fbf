/-
# The line editor of the shell

The line of `kernel/shell.c`: a buffer with a length and, independently of it, a
terminator.
-/

import Aeos.Lib.CString

namespace Aeos.Shell

open Lib List

def lineMax : Nat := 64

structure Line where
  line : List UInt8
  len : Nat

/-- The commands, with the argument of those that take one. -/
inductive Command
  | help
  | ps
  | procs
  | ls
  | install
  | cores
  | tui
  | reboot
  | cat (name : Option (List UInt8))
  | write (name : Option (List UInt8))
  | rm (name : Option (List UInt8))
  | mem
  | ai
  | uptime
  | about
  | clear
  | unknown (text : List UInt8)
  deriving DecidableEq

def lineReset (l : Line) : Line := ⟨l.line.set 0 0, 0⟩

def lineBackspace (l : Line) : Line := if l.len = 0 then l else { l with len := l.len - 1 }

def lineAcceptChar (l : Line) (c : UInt8) : Line :=
  if lineMax - 1 ≤ l.len then l else ⟨(l.line.set l.len c).set (l.len + 1) 0, l.len + 1⟩

def streq : List UInt8 → List UInt8 → Bool
  | [], [] => true
  | [], b :: _ => b = 0
  | a :: _, [] => a = 0
  | a :: as, b :: bs => if a ≠ 0 ∧ a = b then streq as bs else a = b

def strncmp2 : List UInt8 → List UInt8 → Bool
  | _, [] => true
  | [], b :: _ => b = 0
  | a :: as, b :: bs => if b = 0 then true else if a ≠ b then false else strncmp2 as bs

def cmdArg (l : Line) : Option (List UInt8) × List UInt8 :=
  match (l.line.take l.len).findIdx? (· = 32) with
  | none => (none, l.line)
  | some i =>
    let arg := cstr ((l.line.drop (i + 1)).dropWhile (· = 32))
    (if arg = [] then none else some arg, l.line.set i 0)

def choose (equals starts : List UInt8 → Bool) (arg : Option (List UInt8)) (text : List UInt8) :
  Command :=
  if equals (ascii "help") then .help
  else if equals (ascii "ps") then .ps
  else if equals (ascii "procs") then .procs
  else if equals (ascii "ls") then .ls
  else if equals (ascii "install") then .install
  else if equals (ascii "cores") then .cores
  else if equals (ascii "tui") then .tui
  else if equals (ascii "reboot") then .reboot
  else if starts (ascii "cat ") then .cat arg
  else if starts (ascii "write ") then .write arg
  else if starts (ascii "rm ") then .rm arg
  else if equals (ascii "mem") then .mem
  else if equals (ascii "ai") then .ai
  else if equals (ascii "uptime") then .uptime
  else if equals (ascii "about") then .about
  else if equals (ascii "clear") then .clear
  else .unknown text

def Command.splits : Command → Bool
  | .cat _ => true
  | .write _ => true
  | .rm _ => true
  | _ => false

def commandOf (l : Line) : Command :=
  choose (streq l.line) (strncmp2 l.line) (cmdArg l).1 (cstr l.line)

/-- `execute`: the command it runs, and the line afterwards. -/
def execute (l : Line) : Option Command × Line :=
  if l.len = 0 then (none, l)
  else
    let command := commandOf l
    (some command, lineReset (if command.splits then { l with line := (cmdArg l).2 } else l))

def press (l : Line) (c : UInt8) : Line :=
  if c = 13 ∨ c = 10 then (execute l).2
  else if c = 0x7F ∨ c = 8 then lineBackspace l
  else if 0x20 ≤ c ∧ c < 0x7F then lineAcceptChar l c
  else l

/-- The line once `shell_task` has got these characters. -/
def typed (keys : List UInt8) : Line :=
  keys.foldl press (lineReset ⟨List.replicate lineMax 0, 0⟩)

/-- The string that a line end passes to the comparisons. -/
def interpreted (l : Line) : Option (List UInt8) := if l.len = 0 then none else some (cstr l.line)

structure Edit where
  text : List UInt8
  erased : Bool

def Edit.press (e : Edit) (c : UInt8) : Edit :=
  if c = 13 ∨ c = 10 then if e.text = [] then e else ⟨[], false⟩
  else if c = 0x7F ∨ c = 8 then if e.text = [] then e else ⟨e.text.dropLast, true⟩
  else if 0x20 ≤ c ∧ c < 0x7F then
    if e.text.length < lineMax - 1 then ⟨e.text ++ [c], false⟩ else e
  else e

def edited (keys : List UInt8) : Edit := keys.foldl Edit.press ⟨[], false⟩

def argument (text : List UInt8) : Option (List UInt8) :=
  match text.findIdx? (· = 32) with
  | none => none
  | some i =>
    let arg := (text.drop (i + 1)).dropWhile (· = 32)
    if arg = [] then none else some arg

def commandFor (text : List UInt8) : Option Command :=
  if text = [] then none
  else some (choose (text == cstr ·) (fun word => (cstr word).isPrefixOf text) (argument text) text)

structure Shows (l : Line) (e : Edit) : Prop where
  len : l.len = e.text.length
  size : l.line.length = lineMax
  chars : ∀ b ∈ e.text, b ≠ 0
  holds : ∃ next rest, l.line = e.text ++ next :: rest ∧ (next = 0 ↔ e.erased = false)

section
variable {l : Line} {e : Edit}

lemma shows_reset {line : List UInt8} {len : Nat} (hsize : line.length = lineMax) :
  Shows (lineReset ⟨line, len⟩) ⟨[], false⟩ := by
  refine ⟨rfl, (length_set ..).trans hsize, nofun, ?_⟩
  cases line with
  | nil => cases hsize
  | cons b rest => exact ⟨0, rest, rfl, by simp⟩

lemma Shows.backspace (h : Shows l e) (hne : e.text ≠ []) :
  Shows (lineBackspace l) ⟨e.text.dropLast, true⟩ := by
  obtain ⟨next, rest, hline, _⟩ := h.holds
  have hlast := dropLast_append_getLast hne
  have hlen : l.len ≠ 0 := by
    rw [h.len]
    exact mt length_eq_zero_iff.mp hne
  rw [lineBackspace, if_neg hlen]
  refine ⟨?_, h.size, fun b hb => h.chars b (mem_of_mem_dropLast hb), ?_⟩
  · rw [length_dropLast, ← h.len]
  refine ⟨e.text.getLast hne, next :: rest, ?_, ?_⟩
  · rw [hline]
    nth_rewrite 1 [← hlast]
    rw [append_assoc, singleton_append]
  · simp [h.chars _ (getLast_mem hne)]

lemma Shows.accept (h : Shows l e) (hroom : e.text.length < lineMax - 1) {c : UInt8}
  (hc : c ≠ 0) : Shows (lineAcceptChar l c) ⟨e.text ++ [c], false⟩ := by
  obtain ⟨next, rest, hline, _⟩ := h.holds
  have hsize := h.size
  rw [lineAcceptChar, if_neg (by rw [h.len]; omega), h.len]
  refine ⟨by simp, by simpa using hsize, ?_, ?_⟩
  · intro b hb
    rcases mem_append.mp hb with hb | hb
    · exact h.chars b hb
    · rwa [mem_singleton.mp hb]
  rw [hline, length_append, length_cons] at hsize
  -- The buffer has another byte behind the one that becomes the character.
  cases rest with
  | nil =>
    rw [length_nil] at hsize
    omega
  | cons b rest => exact ⟨0, rest, by simp [hline], by simp⟩

lemma length_cmdArg (l : Line) : (cmdArg l).2.length = l.line.length := by
  unfold cmdArg
  split
  · rfl
  · exact length_set ..

lemma Shows.press (h : Shows l e) (c : UInt8) : Shows (press l c) (e.press c) := by
  have hempty : l.len = 0 ↔ e.text = [] := by rw [h.len, length_eq_zero_iff]
  unfold Shell.press Edit.press
  split_ifs with hend hnone hback hnone hprint hroom
  · rwa [execute, if_pos (hempty.mpr hnone)]
  · rw [execute, if_neg (mt hempty.mp hnone)]
    dsimp only
    split_ifs
    · exact shows_reset ((length_cmdArg l).trans h.size)
    · exact shows_reset h.size
  · rwa [lineBackspace, if_pos (hempty.mpr hnone)]
  · exact h.backspace hnone
  · refine h.accept hroom ?_
    rintro rfl
    exact absurd hprint.1 (by decide)
  · rwa [lineAcceptChar, if_pos (by rw [h.len]; omega)]
  · exact h

end

lemma shows_typed (keys : List UInt8) : Shows (typed keys) (edited keys) := by
  induction keys using List.reverseRecOn with
  | nil => exact shows_reset (length_replicate ..)
  | append_singleton keys c ih =>
    rw [typed, edited, foldl_append, foldl_append]
    exact ih.press c

section
variable {text w rest : List UInt8}

lemma streq_eq (htext : ∀ b ∈ text, b ≠ 0) : streq (text ++ 0 :: rest) w = (text == cstr w) := by
  induction text generalizing w with
  | nil =>
    cases w with
    | nil => rfl
    | cons b bs => by_cases hb : b = 0 <;> simp [streq, cstr, hb, eq_comm]
  | cons a as ih =>
    obtain ⟨ha, has⟩ := forall_mem_cons.mp htext
    cases w with
    | nil => simp [streq, cstr, ha]
    | cons b bs =>
      rw [cons_append, streq, ih has]
      by_cases hab : a = b
      · obtain rfl := hab
        simp [cstr, ha]
      · by_cases hb : b = 0 <;> simp [cstr, hab, hb, ha]

lemma strncmp2_eq : strncmp2 (text ++ 0 :: rest) w = (cstr w).isPrefixOf text := by
  induction w generalizing text with
  | nil => simp [strncmp2, cstr]
  | cons b bs ih =>
    by_cases hb : b = 0
    · cases text <;> simp [strncmp2, cstr, hb]
    have hword : cstr (b :: bs) = b :: cstr bs := by simp [cstr, hb]
    rw [hword]
    cases text with
    | nil => simp [strncmp2, hb, Ne.symm hb, List.isPrefixOf]
    | cons a as =>
      rw [cons_append, strncmp2, if_neg hb, ih, List.isPrefixOf]
      by_cases hab : a = b
      · simp [hab]
      · simp [hab, Ne.symm hab]

variable (htext : ∀ b ∈ text, b ≠ 0)
include htext

lemma cstr_dropWhile : cstr ((text ++ 0 :: rest).dropWhile (· = 32)) = text.dropWhile (· = 32) := by
  induction text with
  | nil => rfl
  | cons a as ih =>
    rw [cons_append, dropWhile_cons, dropWhile_cons]
    split_ifs
    · exact ih (forall_mem_cons.mp htext).2
    · exact (cstr_append_cons htext 0 rest).mpr rfl

lemma cmdArg_eq : (cmdArg ⟨text ++ 0 :: rest, text.length⟩).1 = argument text := by
  unfold cmdArg argument
  rw [take_left]
  cases hblank : text.findIdx? (· = 32) with
  | none => rfl
  | some i =>
    have hi := (List.findIdx?_eq_some_iff_getElem.mp hblank).1
    dsimp only
    rw [drop_append_of_le_length hi,
      cstr_dropWhile fun b hb => htext b (mem_of_mem_drop hb)]

lemma commandOf_eq : commandOf ⟨text ++ 0 :: rest, text.length⟩ =
    choose (text == cstr ·) (fun word => (cstr word).isPrefixOf text) (argument text) text := by
  rw [commandOf, cmdArg_eq htext, (cstr_append_cons htext 0 rest).mpr rfl]
  congr 1
  · funext word
    exact streq_eq htext
  funext word
  exact strncmp2_eq

end

/-- After any keys, a line end executes the edited text exactly if there is none or its last
change was not a backspace. -/
theorem shell_executes_edited_text_iff (keys : List UInt8) :
  ((∀ text, interpreted (typed keys) = some text → text = (edited keys).text) ↔
    (edited keys).text = [] ∨ (edited keys).erased = false) ∧
  ((edited keys).text = [] ∨ (edited keys).erased = false →
    (execute (typed keys)).1 = commandFor (edited keys).text) := by
  obtain ⟨hlen, _, hchars, next, rest, hline, hnext⟩ := shows_typed keys
  generalize typed keys = l at *
  generalize edited keys = e at *
  obtain ⟨line, len⟩ := l
  obtain rfl : line = _ := hline
  obtain rfl : len = _ := hlen
  unfold interpreted execute commandFor
  by_cases hempty : e.text = []
  · simp [hempty]
  have hsome : ¬ e.text.length = 0 := fun hzero => hempty (length_eq_zero_iff.mp hzero)
  simp only [if_neg hsome, hempty, false_or, if_false]
  constructor
  · rw [← hnext, ← cstr_append_cons hchars next rest]
    simp
  intro hkept
  rw [hnext.mpr hkept, commandOf_eq hchars]

/-- `help`, an `x` that is erased again, and a line end: the command is unknown. -/
theorem erased_character_executed : (edited (ascii "helpx" ++ [8])).text = ascii "help" ∧
    (execute (typed (ascii "helpx" ++ [8]))).1 = some (.unknown (ascii "helpx")) := by
  decide +kernel

end Aeos.Shell
