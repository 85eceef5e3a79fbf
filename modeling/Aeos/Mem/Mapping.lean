/-
# Mapping blocks

Any number of address spaces built by `as_create` and `as_map_block`, over any page
source that hands out distinct unused pages.
-/

import Aeos.Mem.Ownership
import Aeos.Mem.PageTables

namespace Aeos.Mem

open Lib List Function
universe u
variable {P : Type u} [PageSource P]

/-- `tables[]` of `as` grows by pages taken from the source, and only pages it then owns are
written. -/
structure Grows (as : Nat) (s s' : Mm P) : Prop where
  heap : s'.heap = s.heap
  other : ∀ x, x ≠ as → s'.spaces x = s.spaces x
  self : (s'.spaces as).self = (s.spaces as).self
  pgd : (s'.spaces as).pgd = (s.spaces as).pgd
  kept : ∀ a ∈ (s.spaces as).tables, a ∈ (s'.spaces as).tables
  taken : ∀ a ∈ (s'.spaces as).tables, a ∈ (s.spaces as).tables ∨
    PageSource.Available s.pmm a ∧ ¬ PageSource.Available s'.pmm a
  available : ∀ a, PageSource.Available s'.pmm a → PageSource.Available s.pmm a
  mem : ∀ a, a ∉ (s'.spaces as).tables → s'.mem a = s.mem a

namespace Grows

lemma refl (as : Nat) (s : Mm P) : Grows as s s where
  heap := rfl
  other _ _ := rfl
  self := rfl
  pgd := rfl
  kept _ h := h
  taken _ h := .inl h
  available _ h := h
  mem _ _ := rfl

variable {as : Nat}

lemma trans {s s' s'' : Mm P} (h : Grows as s s') (h' : Grows as s' s'') : Grows as s s'' where
  heap := h'.heap.trans h.heap
  other x hx := (h'.other x hx).trans (h.other x hx)
  self := h'.self.trans h.self
  pgd := h'.pgd.trans h.pgd
  kept a ha := h'.kept a (h.kept a ha)
  taken a ha := by
    rcases h'.taken a ha with hold | ⟨havail, hgone⟩
    · rcases h.taken a hold with hold | ⟨havail, hgone⟩
      · exact .inl hold
      · exact .inr ⟨havail, fun hlater => hgone (h'.available a hlater)⟩
    · exact .inr ⟨h.available a havail, hgone⟩
  available a ha := h.available a (h'.available a ha)
  mem a ha := (h'.mem a ha).trans (h.mem a fun hold => ha (h'.kept a hold))

lemma store {s s' : Mm P} (h : Grows as s s') {table : Nat}
  (hown : table ∈ (s'.spaces as).tables) (i value : Nat) :
  Grows as s { s' with mem := setEntry s'.mem table i value } :=
  { h with
    mem := fun a ha => by
      have hne : a ≠ table := fun heq => ha (heq ▸ hown)
      exact (setEntry_of_ne _ _ _ hne).trans (h.mem a ha) }

lemma not_available {s s' : Mm P} (h : Grows as s s')
  (hown : ∀ a ∈ (s.spaces as).tables, ¬ PageSource.Available s.pmm a) :
  ∀ a ∈ (s'.spaces as).tables, ¬ PageSource.Available s'.pmm a := by
  intro a ha havail
  rcases h.taken a ha with hold | ⟨_, hgone⟩
  · exact hown a hold (h.available a havail)
  · exact hgone havail

end Grows

lemma asAllocTable_cases (s : Mm P) (as : Nat) :
  asAllocTable s as = (0, { s with pmm := (PageSource.allocPage s.pmm).2 }) ∨
    ∃ a, (PageSource.allocPage s.pmm).1 = a ∧ a ≠ 0 ∧
      asAllocTable s as =
        (a,
          { s with
            pmm := (PageSource.allocPage s.pmm).2
            mem := update s.mem a fun _ => 0
            spaces := update s.spaces as
              { s.spaces as with tables := (s.spaces as).tables ++ [a] } }) := by
  by_cases hfail : (PageSource.allocPage s.pmm).1 = 0 ∨
      asMaxTables ≤ (s.spaces as).tables.length
  · exact .inl (if_pos hfail)
  · exact .inr ⟨_, rfl, (not_or.mp hfail).1, if_neg hfail⟩

lemma grows_asAllocTable (s : Mm P) (as : Nat) : Grows as s (asAllocTable s as).2 := by
  rcases asAllocTable_cases s as with heq | ⟨a, rfl, hne, heq⟩
  · rw [heq]
    exact { Grows.refl as s with
      taken := fun a ha => .inl ha
      available := fun a => PageSource.available_of_alloc }
  rw [heq]
  refine ⟨rfl, fun x hx => update_of_ne hx _ _, ?_, ?_, ?_, ?_, ?_, ?_⟩
  · simp
  · simp
  · intro b hb
    simp [hb]
  · intro b hb
    simp only [update_self, mem_append, mem_singleton] at hb
    rcases hb with hb | rfl
    · exact .inl hb
    · exact .inr ⟨PageSource.alloc_available hne, PageSource.alloc_taken hne⟩
  · exact fun b => PageSource.available_of_alloc
  intro b hb
  have hba : b ≠ (PageSource.allocPage s.pmm).1 := fun hba => hb (by simp [hba])
  exact update_of_ne hba _ _

lemma aligned_and_bitsFrom {a lo : Nat} (hlo : lo ≤ 48) (haligned : a % 2 ^ lo = 0)
  (hbound : a < 2 ^ 48) : a &&& bitsFrom lo 64 = a := by
  have hfit : a < 2 ^ 64 := hbound.trans (by decide)
  simpa using aligned_add_and_bitsFrom (show lo ≤ 64 by omega) haligned (Nat.two_pow_pos lo) hfit

section
variable {k : KernelTables} {s : Mm P} {as : Nat} {t : Tree}
variable (h : Represents k s.mem (s.spaces as) t)
include h

lemma nextTable_spec {i table : Nat} {p : List Nat}
    (hown : ∀ a ∈ (s.spaces as).tables, ¬ PageSource.Available s.pmm a) (hp : IsTable (i :: p))
    (htable : t p = some table) : Grows as s (nextTable s as table i).2 ∧
    ∃ t', Represents k (nextTable s as table i).2.mem ((nextTable s as table i).2.spaces as) t' ∧
      (∀ q, q ≠ i :: p → t' q = t q) ∧
      ∀ b, (nextTable s as table i).1 = some b → t' (i :: p) = some b := by
  have hparent : IsTable p := isTable_of_cons hp
  have hentry := h.entry hparent htable i
  have hmine := h.owned p table (by rw [t.place_of_isTable hparent, htable])
  cases hchild : t (i :: p) with
  | some b =>
    -- The descriptor is there: nothing is allocated.
    obtain ⟨haligned, hbound⟩ := h.table_ok _ _ hp.1 hchild
    rw [hchild, descriptor_table hp.1 haligned] at hentry
    have hkind : (b + 3) &&& pteTable ≠ 0 := by
      rw [pteTable, and_three]
      omega
    have haddr : (b + 3) &&& bitsFrom 12 64 = b :=
      aligned_add_and_bitsFrom (by decide) haligned (by decide) (hbound.trans (by decide))
    have heq : nextTable s as table i = (some b, s) := by
      simp only [nextTable, hentry, hkind, haddr, if_false]
    rw [heq]
    refine ⟨Grows.refl as s, t, h, fun _ _ => rfl, ?_⟩
    rintro _ ⟨⟩
    exact hchild
  | none =>
    have hempty : s.mem table i &&& pteTable = 0 := by
      rw [hentry, hchild]
      exact Nat.zero_and _
    have hgrow := grows_asAllocTable s as
    rcases asAllocTable_cases s as with hfail | ⟨a, ha, hne, hok⟩
    · have heq : nextTable s as table i =
          (none, { s with pmm := (PageSource.allocPage s.pmm).2 }) := by
        simp [nextTable, hempty, hfail]
      rw [hfail] at hgrow
      rw [heq]
      exact ⟨hgrow, t, h, fun _ _ => rfl, by simp⟩
    have havail : PageSource.Available s.pmm a := by
      rw [← ha] at hne ⊢
      exact PageSource.alloc_available hne
    have haligned := PageSource.aligned havail
    have hbound := PageSource.bounded havail
    have hadded := h.addTable hp htable hchild (fun hold => hown a hold havail) haligned hbound
    rw [hok] at hgrow
    have hstored := hgrow.store (hgrow.kept table hmine) i (a ||| pteTable)
    have heq : nextTable s as table i =
        (some a,
          { s with
            pmm := (PageSource.allocPage s.pmm).2
            mem := setEntry (update s.mem a fun _ => 0) table i (a ||| pteTable)
            spaces := update s.spaces as
              { s.spaces as with tables := (s.spaces as).tables ++ [a] } }) := by
      simp [nextTable, hempty, hok, hne,
        aligned_and_bitsFrom (by decide : 12 ≤ 48) haligned hbound]
    rw [heq]
    refine ⟨hstored, update t (i :: p) (some a), ?_, fun q hq => update_of_ne hq _ _, ?_⟩
    · simpa using hadded
    rintro _ ⟨⟩
    exact update_self _ _ _

lemma asMapBlock_spec {va pa : Nat} {code : Int} {s' : Mm P}
    (hown : ∀ a ∈ (s.spaces as).tables, ¬ PageSource.Available s.pmm a)
    (hslot : tableIndex 3 va ≠ 0) (hpa : pa < 2 ^ 48)
    (hcall : asMapBlock s as va pa userBlockRwx = (code, s')) : Grows as s s' ∧
    ∃ t', Represents k s'.mem (s'.spaces as) t' ∧
      (∀ q, q.length = 3 → q ≠ blockPath va → t' q = t q) ∧
      t' (blockPath va) = if code = 0 then some pa else t (blockPath va) := by
  have hpud : IsTable [tableIndex 3 va] := ⟨by simp, by simpa using hslot⟩
  have hpmd : IsTable [tableIndex 2 va, tableIndex 3 va] := ⟨by simp, by simpa using hslot⟩
  have hlen : ∀ q : List Nat, q.length = 3 → q ≠ [tableIndex 3 va] ∧
      q ≠ [tableIndex 2 va, tableIndex 3 va] := by
    intro q hq
    constructor <;> rintro rfl <;> simp at hq
  unfold asMapBlock at hcall
  split_ifs at hcall with hbad hfull
  · obtain ⟨rfl, rfl⟩ := Prod.mk.inj hcall
    exact ⟨Grows.refl as s, t, h, fun _ _ _ => rfl, rfl⟩
  · obtain ⟨rfl, rfl⟩ := Prod.mk.inj hcall
    exact ⟨Grows.refl as s, t, h, fun _ _ _ => rfl, rfl⟩
  have haligned : pa % 2 ^ 21 = 0 := by
    rw [← Nat.and_two_pow_sub_one_eq_mod]
    exact not_not.mp fun hne => hbad (.inr (.inr (.inr hne)))
  obtain ⟨hgrow₁, t₁, h₁, hkeep₁, hsome₁⟩ := nextTable_spec h hown hpud h.root
  have hold₁ : ∀ q, q.length = 3 → t₁ q = t q := fun q hq => hkeep₁ q (hlen q hq).1
  rcases hnext₁ : nextTable s as (s.spaces as).pgd (tableIndex 3 va) with ⟨pud, s₁⟩
  rw [hnext₁] at hgrow₁ h₁ hsome₁ hcall
  cases pud with
  | none =>
    obtain ⟨rfl, rfl⟩ := Prod.mk.inj hcall
    exact ⟨hgrow₁, t₁, h₁, fun q hq _ => hold₁ q hq, hold₁ _ rfl⟩
  | some pud =>
    obtain ⟨hgrow₂, t₂, h₂, hkeep₂, hsome₂⟩ :=
      nextTable_spec h₁ (hgrow₁.not_available hown) hpmd (hsome₁ pud rfl)
    have hold₂ : ∀ q, q.length = 3 → t₂ q = t q := fun q hq =>
      (hkeep₂ q (hlen q hq).2).trans (hold₁ q hq)
    dsimp only at hcall
    rcases hnext₂ : nextTable s₁ as pud (tableIndex 2 va) with ⟨pmd, s₂⟩
    rw [hnext₂] at hgrow₂ h₂ hsome₂ hcall
    cases pmd with
    | none =>
      obtain ⟨rfl, rfl⟩ := Prod.mk.inj hcall
      exact ⟨hgrow₁.trans hgrow₂, t₂, h₂, fun q hq _ => hold₂ q hq, hold₂ _ rfl⟩
    | some pmd =>
      obtain ⟨rfl, rfl⟩ := Prod.mk.inj hcall
      have hat := hsome₂ pmd rfl
      have hmine := h₂.owned _ pmd (by rw [t₂.place_of_isTable hpmd, hat])
      rw [aligned_and_bitsFrom (by decide) haligned hpa]
      refine ⟨(hgrow₁.trans hgrow₂).store hmine _ _, _,
        h₂.setBlock hpmd rfl hat haligned hpa, ?_, update_self _ _ _⟩
      intro q hq hne
      exact (update_of_ne hne _ _).trans (hold₂ q hq)

end

lemma mapBlock_pgd (k : KernelTables) (mem : TableMem) {va : Nat} (pa attrs : Nat)
  (hslot : tableIndex 3 va = 0) :
  mapBlock k mem va pa attrs k.pgd = update (mem k.pgd) 0 (k.pud ||| pteTable) := by
  unfold mapBlock
  rw [setEntry_of_ne _ _ _ k.pgd_ne_pmd, setEntry_of_ne _ _ _ k.pgd_ne_pud, setEntry_same, hslot]

lemma foldl_mapBlock_pgd (k : KernelTables) (blocks : List (Nat × Nat)) :
  ∀ mem : TableMem, (∀ block ∈ blocks, tableIndex 3 block.1 = 0) →
    blocks.foldl (fun mem block => mapBlock k mem block.1 block.1 block.2) mem k.pgd =
      if blocks = [] then mem k.pgd else update (mem k.pgd) 0 (k.pud ||| pteTable) := by
  induction blocks with
  | nil => exact fun mem _ => rfl
  | cons block blocks ih =>
    intro mem hslots
    have hrest := ih (mapBlock k mem block.1 block.1 block.2)
      fun b hb => hslots b (mem_cons_of_mem _ hb)
    rw [mapBlock_pgd k mem _ _ (hslots block mem_cons_self)] at hrest
    rw [foldl_cons, hrest]
    simp

lemma vmmInit_pgd (k : KernelTables) (mem : TableMem) (i : Nat) :
  vmmInit k mem k.pgd i = if i = 0 then k.pud ||| pteTable else 0 := by
  have hslots : ∀ block ∈ kernelBlocks, tableIndex 3 block.1 = 0 := by decide
  unfold vmmInit
  rw [foldl_mapBlock_pgd k kernelBlocks _ hslots, if_neg (by decide),
    update_of_ne k.pgd_ne_pmd, update_of_ne k.pgd_ne_pud,
    update_self, Function.update_apply]

/-- The memory manager, the address spaces made, and for each of them the last address mapped at
each 2 MB block. -/
structure MapState (P : Type u) where
  mm : Mm P
  made : List Nat
  mapped : Nat → Nat → Option Nat

/-- One call. `other` is whatever the rest of the kernel does to the page
source. -/
inductive MapEvent (P : Type u)
  | create
  | map (as va pa : Nat)
  | other (pmm : P)

/-- The address space whose tables an event builds. -/
def MapEvent.target : MapEvent P → Option Nat
  | .map as _ _ => some as
  | _ => none

def mapReact (k : KernelTables) (s : MapState P) : MapEvent P → MapState P
  | .create =>
    let call := asCreate k s.mm
    if call.1 = 0 then { s with mm := call.2 }
    else
      { mm := call.2
        made := call.1 :: s.made
        mapped := update s.mapped call.1 fun _ => none }
  | .map as va pa =>
    let call := asMapBlock s.mm as va pa userBlockRwx
    { s with
      mm := call.2
      mapped :=
        if call.1 = 0 then
          update s.mapped as
            (update (s.mapped as) (va / 2 ^ 21) (some pa))
        else s.mapped }
  | .other pmm => { s with mm := { s.mm with pmm := pmm } }

def InUse (k : KernelTables) (s : MapState P) (a : Nat) : Prop :=
  k.Has a ∨ ∃ as ∈ s.made, a ∈ (s.mm.spaces as).tables

/-- Mapping calls stay in the 48-bit space and out of the kernel's slot, and pages in use are not
given back. -/
def mapAdmits (k : KernelTables) (s : MapState P) : MapEvent P → Prop
  | .create => True
  | .map as va pa => as ∈ s.made ∧ va < 2 ^ 48 ∧ tableIndex 3 va ≠ 0 ∧ pa < 2 ^ 48
  | .other pmm => ∀ a, PageSource.Available pmm a → ¬ InUse k s a

/-- Any sequence of calls after `vmm_init`, with the kernel's tables not
available to the page source. -/
def mapMachine (k : KernelTables) : Machine (MapState P) (MapEvent P) where
  init s :=
    (∃ mem, s.mm.mem = vmmInit k mem) ∧ s.made = [] ∧
      0 < s.mm.heap.ptr ∧ s.mm.heap.ptr ≤ heapEnd ∧
      ∀ a, PageSource.Available s.mm.pmm a → ¬ k.Has a
  enabled := mapAdmits k
  step := mapReact k

lemma blockPath_inj {va va' : Nat} (hva : va < 2 ^ 48) (hva' : va' < 2 ^ 48) :
  blockPath va = blockPath va' ↔ va / 2 ^ 21 = va' / 2 ^ 21 := by
  simp only [blockPath, tableIndex_eq, List.cons.injEq, and_true]
  omega

structure MapInv (k : KernelTables) (mem₀ : TableMem) (s : MapState P) : Prop where
  kernel : ∀ a, k.Has a → s.mm.mem a = mem₀ a
  heap_pos : 0 < s.mm.heap.ptr
  heap_le : s.mm.heap.ptr ≤ heapEnd
  below : ∀ as ∈ s.made, as < s.mm.heap.ptr
  unavailable : ∀ a, PageSource.Available s.mm.pmm a → ¬ InUse k s a
  private_ : ∀ as ∈ s.made, ∀ a ∈ (s.mm.spaces as).tables, ¬ k.Has a
  apart : ∀ as ∈ s.made, ∀ as' ∈ s.made, ∀ a ∈ (s.mm.spaces as).tables,
    a ∈ (s.mm.spaces as').tables → as = as'
  tree : ∀ as ∈ s.made, ∃ t, Represents k s.mm.mem (s.mm.spaces as) t ∧
    ∀ va < 2 ^ 48, tableIndex 3 va ≠ 0 → t (blockPath va) = s.mapped as (va / 2 ^ 21)

namespace MapInv

variable {k : KernelTables} {mem₀ : TableMem} {s : MapState P} {as : Nat}

section
variable (h : MapInv k mem₀ s)
include h

lemma foreign {mm : Mm P} (hgrow : Grows as s.mm mm) {a : Nat} (huse : InUse k s a)
    (hmine : a ∉ (s.mm.spaces as).tables) : a ∉ (mm.spaces as).tables := by
  intro ha
  rcases hgrow.taken a ha with hold | ⟨havail, _⟩
  · exact hmine hold
  · exact h.unavailable a havail huse

lemma not_mine_of_kernel (has : as ∈ s.made) {a : Nat} (ha : k.Has a) :
  a ∉ (s.mm.spaces as).tables := fun hmine => h.private_ as has a hmine ha

lemma not_mine_of_other (has : as ∈ s.made) {other a : Nat} (hother : other ∈ s.made)
    (hne : other ≠ as) (ha : a ∈ (s.mm.spaces other).tables) :
  a ∉ (s.mm.spaces as).tables := fun hmine => hne (h.apart other hother as has a ha hmine)

end

/-- Each page of the address spaces was there before, or `grown` has just taken it from the page
source. -/
def PagesFrom (s : MapState P) (grown : Nat) (s' : MapState P) : Prop :=
  ∀ x ∈ s'.made, ∀ a ∈ (s'.mm.spaces x).tables,
    x ∈ s.made ∧ a ∈ (s.mm.spaces x).tables ∨
      x = grown ∧ PageSource.Available s.mm.pmm a ∧ ¬ PageSource.Available s'.mm.pmm a

section
variable {s' : MapState P} {grown : Nat} (h : MapInv k mem₀ s)
include h

lemma unavailable_of_pagesFrom (hpages : PagesFrom s grown s')
    (havailable : ∀ a, PageSource.Available s'.mm.pmm a → PageSource.Available s.mm.pmm a) :
  ∀ a, PageSource.Available s'.mm.pmm a → ¬ InUse k s' a := by
  rintro a havail (hk | ⟨x, hx, ha⟩)
  · exact h.unavailable a (havailable a havail) (.inl hk)
  rcases hpages x hx a ha with hold | ⟨-, -, hgone⟩
  · exact h.unavailable a (havailable a havail) (.inr ⟨x, hold⟩)
  · exact hgone havail

lemma private_of_pagesFrom (hpages : PagesFrom s grown s') :
  ∀ as ∈ s'.made, ∀ a ∈ (s'.mm.spaces as).tables, ¬ k.Has a := by
  intro x hx a ha hk
  rcases hpages x hx a ha with ⟨hx, ha⟩ | ⟨-, havail, -⟩
  · exact h.private_ x hx a ha hk
  · exact h.unavailable a havail (.inl hk)

lemma apart_of_pagesFrom (hpages : PagesFrom s grown s') :
  ∀ as ∈ s'.made, ∀ as' ∈ s'.made, ∀ a ∈ (s'.mm.spaces as).tables,
    a ∈ (s'.mm.spaces as').tables → as = as' := by
  intro x hx y hy a hax hay
  rcases hpages x hx a hax with holdx | ⟨hxg, havail, -⟩
  · rcases hpages y hy a hay with holdy | ⟨-, havail, -⟩
    · exact h.apart x holdx.1 y holdy.1 a holdx.2 holdy.2
    · exact absurd (.inr ⟨x, holdx⟩) (h.unavailable a havail)
  rcases hpages y hy a hay with holdy | ⟨hyg, -, -⟩
  · exact absurd (.inr ⟨y, holdy⟩) (h.unavailable a havail)
  · rw [hxg, hyg]

end

variable (h : MapInv k mem₀ s)
include h

lemma map {va pa : Nat} (hadmits : mapAdmits k s (.map as va pa)) :
  MapInv k mem₀ (mapReact k s (.map as va pa)) := by
  obtain ⟨has, hva, hslot, hpa⟩ := hadmits
  obtain ⟨t, ht, hblocks⟩ := h.tree as has
  have hown : ∀ a ∈ (s.mm.spaces as).tables, ¬ PageSource.Available s.mm.pmm a :=
    fun a ha havail => h.unavailable a havail (.inr ⟨as, has, ha⟩)
  rcases hcall : asMapBlock s.mm as va pa userBlockRwx with ⟨code, mm⟩
  obtain ⟨hgrow, t', ht', hkeep, hset⟩ := asMapBlock_spec ht hown hslot hpa hcall
  have hreact : (mapReact k s (.map as va pa)).mm = mm := by simp only [mapReact, hcall]
  have hpages : PagesFrom s as (mapReact k s (.map as va pa)) := by
    intro x hx a ha
    rw [hreact] at ha ⊢
    by_cases hxas : x = as
    · subst hxas
      exact (hgrow.taken a ha).imp (fun hold => ⟨hx, hold⟩) fun hnew => ⟨rfl, hnew⟩
    rw [hgrow.other x hxas] at ha
    exact .inl ⟨hx, ha⟩
  simp only [mapReact, hcall] at hpages ⊢
  refine ⟨?_, ?_, ?_, ?_, ?_, ?_, ?_, ?_⟩
  · intro a ha
    exact (hgrow.mem a (h.foreign hgrow (.inl ha) (h.not_mine_of_kernel has ha))).trans
      (h.kernel a ha)
  · rw [hgrow.heap]
    exact h.heap_pos
  · rw [hgrow.heap]
    exact h.heap_le
  · rw [hgrow.heap]
    exact h.below
  · exact h.unavailable_of_pagesFrom hpages hgrow.available
  · exact h.private_of_pagesFrom hpages
  · exact h.apart_of_pagesFrom hpages
  intro x hx
  by_cases hxas : x = as
  · subst hxas
    refine ⟨t', ht', fun va' hva' hslot' => ?_⟩
    by_cases hsame : va' / 2 ^ 21 = va / 2 ^ 21
    · rw [(blockPath_inj hva' hva).mpr hsame, hset, hsame, hblocks va hva hslot]
      split_ifs
      · dsimp only
        rw [update_self, update_self]
      · rfl
    rw [hkeep _ rfl fun heq => hsame ((blockPath_inj hva' hva).mp heq),
      hblocks va' hva' hslot']
    split_ifs
    · dsimp only
      rw [update_self, update_of_ne hsame]
    · rfl
  obtain ⟨tx, htx, hbx⟩ := h.tree x hx
  refine ⟨tx, ?_, fun va' hva' hslot' => ?_⟩
  · rw [hgrow.other x hxas]
    refine htx.frame fun a ha => hgrow.mem a ?_
    exact h.foreign hgrow (.inr ⟨x, hx, ha⟩) (h.not_mine_of_other has hx hxas ha)
  rw [hbx va' hva' hslot']
  split_ifs
  · dsimp only
    rw [update_of_ne hxas]
  · rfl

lemma create_fail {mm : Mm P} (hcall : asCreate k s.mm = (0, mm)) :
    MapInv k mem₀ { s with mm := mm } := by
  have hfixed : mm.mem = s.mm.mem ∧ (∀ x ∈ s.made, mm.spaces x = s.mm.spaces x) ∧
      (∀ a, PageSource.Available mm.pmm a → PageSource.Available s.mm.pmm a) ∧
      s.mm.heap.ptr ≤ mm.heap.ptr ∧ mm.heap.ptr ≤ heapEnd := by
    rcases asCreate_cases k h.heap_pos h.heap_le with ⟨_, heq⟩ | ⟨hfit, ⟨_, heq⟩ | ⟨a, _, _, heq⟩⟩
    · obtain ⟨_, rfl⟩ := Prod.mk.inj (hcall.symm.trans heq)
      exact ⟨rfl, fun _ _ => rfl, fun _ ha => ha, le_rfl, h.heap_le⟩
    · obtain ⟨_, rfl⟩ := Prod.mk.inj (hcall.symm.trans heq)
      refine ⟨rfl, fun x hx => ?_, fun _ => PageSource.available_of_alloc, ?_, hfit⟩
      · exact update_of_ne (h.below x hx).ne _ _
      · exact Nat.le_add_right _ _
    have hzero := (Prod.mk.inj (hcall.symm.trans heq)).1
    exact absurd hzero.symm h.heap_pos.ne'
  obtain ⟨hmem, hspaces, havailable, hle, hheap⟩ := hfixed
  have hpages : PagesFrom s 0 { s with mm := mm } := by
    intro x hx a ha
    rw [hspaces x hx] at ha
    exact .inl ⟨hx, ha⟩
  refine ⟨?_, h.heap_pos.trans_le hle, hheap, fun x hx => (h.below x hx).trans_le hle,
    h.unavailable_of_pagesFrom hpages havailable, h.private_of_pagesFrom hpages,
    h.apart_of_pagesFrom hpages, ?_⟩
  · rw [hmem]
    exact h.kernel
  intro x hx
  rw [hmem, hspaces x hx]
  exact h.tree x hx

lemma create_ok (hkernel : ∀ i, mem₀ k.pgd i = if i = 0 then k.pud ||| pteTable else 0)
    {new : Nat} {mm : Mm P} (hcall : asCreate k s.mm = (new, mm)) (hnew : new ≠ 0) : MapInv k mem₀
    { mm := mm
      made := new :: s.made
      mapped := update s.mapped new fun _ => none } := by
  have hcases : new = s.mm.heap.ptr ∧ s.mm.heap.ptr < mm.heap.ptr ∧ mm.heap.ptr ≤ heapEnd ∧
      (∀ a, PageSource.Available mm.pmm a → PageSource.Available s.mm.pmm a) ∧
      ∃ a, PageSource.Available s.mm.pmm a ∧ ¬ PageSource.Available mm.pmm a ∧
        mm.spaces = update s.mm.spaces new ⟨a, [a], 0, new⟩ ∧
        mm.mem = update s.mm.mem a (update s.mm.mem a (fun _ => 0) k.pgd) := by
    rcases asCreate_cases k h.heap_pos h.heap_le with
      ⟨_, heq⟩ | ⟨hfit, ⟨_, heq⟩ | ⟨a, rfl, hne, heq⟩⟩
    · exact absurd (Prod.mk.inj (hcall.symm.trans heq)).1 hnew
    · exact absurd (Prod.mk.inj (hcall.symm.trans heq)).1 hnew
    obtain ⟨rfl, rfl⟩ := Prod.mk.inj (hcall.symm.trans heq)
    exact ⟨rfl, Nat.lt_add_of_pos_right (by decide), hfit,
      fun _ => PageSource.available_of_alloc, _, PageSource.alloc_available hne,
      PageSource.alloc_taken hne, rfl, rfl⟩
  obtain ⟨hptr, hlt, hheap, havailable, a, havail, hgone, hspaces, hmem⟩ := hcases
  have hunused : ¬ InUse k s a := h.unavailable a havail
  have hold : ∀ x ∈ s.made, x ≠ new := fun x hx => hptr ▸ (h.below x hx).ne
  have hspace : ∀ x ∈ s.made, mm.spaces x = s.mm.spaces x := fun x hx => by
    rw [hspaces, update_of_ne (hold x hx)]
  have hown : mm.spaces new = ⟨a, [a], 0, new⟩ := by rw [hspaces, update_self]
  have hkeep : ∀ b, InUse k s b → mm.mem b = s.mm.mem b := by
    intro b hb
    have hba : b ≠ a := fun hba => hunused (hba ▸ hb)
    rw [hmem, update_of_ne hba]
  have hpgd : k.pgd ≠ a := fun heq => hunused (.inl (.inl heq.symm))
  have hpages : PagesFrom s new
      { mm := mm
        made := new :: s.made
        mapped := update s.mapped new fun _ => none } := by
    intro x hx b hb
    rcases mem_cons.mp hx with rfl | hx
    · rw [hown] at hb
      rw [mem_singleton.mp hb]
      exact .inr ⟨rfl, havail, hgone⟩
    rw [hspace x hx] at hb
    exact .inl ⟨hx, hb⟩
  refine ⟨?_, h.heap_pos.trans hlt, hheap, ?_, h.unavailable_of_pagesFrom hpages havailable,
    h.private_of_pagesFrom hpages, h.apart_of_pagesFrom hpages, ?_⟩
  · exact fun b hb => (hkeep b (.inl hb)).trans (h.kernel b hb)
  · intro x hx
    rcases mem_cons.mp hx with rfl | hx
    · rw [hptr]
      exact hlt
    · exact (h.below x hx).trans hlt
  intro x hx
  dsimp only
  rcases mem_cons.mp hx with rfl | hx
  · have hrow : ∀ i, mm.mem a i = if i = 0 then k.pud ||| pteTable else 0 := by
      intro i
      rw [hmem, update_self, update_of_ne hpgd, h.kernel _ (.inl rfl), hkernel i]
    refine ⟨freshTree k a, ?_, fun va _ _ => ?_⟩
    · rw [hown]
      exact represents_freshTree hrow rfl (mem_singleton_self a)
        (PageSource.aligned havail) (PageSource.bounded havail)
    · simp [freshTree, blockPath]
  obtain ⟨t, ht, hblocks⟩ := h.tree x hx
  refine ⟨t, ?_, fun va hva hslot => ?_⟩
  · rw [hspace x hx]
    exact ht.frame fun b hb => hkeep b (.inr ⟨x, hx, hb⟩)
  · rw [update_of_ne (hold x hx), hblocks va hva hslot]

lemma step (hkernel : ∀ i, mem₀ k.pgd i = if i = 0 then k.pud ||| pteTable else 0)
    {e : MapEvent P} (hadmits : mapAdmits k s e) : MapInv k mem₀ (mapReact k s e) := by
  cases e with
  | create =>
    rcases hcall : asCreate k s.mm with ⟨new, mm⟩
    simp only [mapReact, hcall]
    split_ifs with hnew
    · subst hnew
      exact h.create_fail hcall
    · exact h.create_ok hkernel hcall hnew
  | map as va pa => exact h.map hadmits
  | other pmm => exact { h with unavailable := hadmits }

end MapInv

lemma asMapBlock_misaligned (s : Mm P) (as : Nat) {va pa : Nat} (attrs : Nat)
  (hbad : va % 2 ^ 21 ≠ 0 ∨ pa % 2 ^ 21 ≠ 0) : asMapBlock s as va pa attrs = (-1, s) := by
  refine if_pos (.inr (.inr ?_))
  rcases hbad with hbad | hbad
  · exact .inl (by rwa [Nat.and_two_pow_sub_one_eq_mod _ 21])
  · exact .inr (by rwa [Nat.and_two_pow_sub_one_eq_mod _ 21])

lemma MapInv.others_kept {k : KernelTables} {mem₀ : TableMem} {s : MapState P}
  (h : MapInv k mem₀ s) {e : MapEvent P} (hadmits : mapAdmits k s e) {as : Nat}
  (has : as ∈ s.made) (htarget : e.target ≠ some as) :
  (mapReact k s e).mm.spaces as = s.mm.spaces as ∧
    ∀ a ∈ (s.mm.spaces as).tables, (mapReact k s e).mm.mem a = s.mm.mem a := by
  cases e with
  | create =>
    have hne := (h.below as has).ne
    have hkept : (asCreate k s.mm).2.spaces as = s.mm.spaces as ∧
        ∀ a ∈ (s.mm.spaces as).tables, (asCreate k s.mm).2.mem a = s.mm.mem a := by
      rcases asCreate_cases k h.heap_pos h.heap_le with
        ⟨_, heq⟩ | ⟨_, ⟨_, heq⟩ | ⟨a, rfl, hpage, heq⟩⟩
      · rw [heq]
        exact ⟨rfl, fun _ _ => rfl⟩
      · rw [heq]
        exact ⟨update_of_ne hne _ _, fun _ _ => rfl⟩
      rw [heq]
      refine ⟨update_of_ne hne _ _, fun b hb => update_of_ne ?_ _ _⟩
      rintro rfl
      exact h.unavailable _ (PageSource.alloc_available hpage) (.inr ⟨as, has, hb⟩)
    simp only [mapReact]
    split_ifs
    · exact hkept
    · exact hkept
  | map other va pa =>
    obtain ⟨hother, hva, hslot, hpa⟩ := hadmits
    obtain ⟨t, ht, _⟩ := h.tree other hother
    have hown : ∀ a ∈ (s.mm.spaces other).tables, ¬ PageSource.Available s.mm.pmm a :=
      fun a ha havail => h.unavailable a havail (.inr ⟨other, hother, ha⟩)
    have hne : as ≠ other := fun heq => htarget (by rw [heq]; rfl)
    obtain ⟨hgrow, _⟩ := asMapBlock_spec ht hown hslot hpa rfl
    refine ⟨hgrow.other as hne, fun a ha => hgrow.mem a ?_⟩
    exact h.foreign hgrow (.inr ⟨as, has, ha⟩) (h.not_mine_of_other hother has hne ha)
  | other pmm => exact ⟨rfl, fun _ _ => rfl⟩

def sampleTables : KernelTables where
  pgd := 0x40090000
  pud := 0x40091000
  pmd := 0x40092000
  pud_aligned := by decide
  pmd_aligned := by decide
  pud_bounded := by decide
  pmd_bounded := by decide
  pgd_ne_pud := by decide
  pgd_ne_pmd := by decide

def sampleMm : Mm Pmm where
  pmm := pmmInit
  heap := heapInit
  mem := vmmInit sampleTables fun _ _ => 0
  spaces := fun _ => ⟨0, [], 0, 0⟩
  asActive := 0

@[simp]
lemma sampleMm_pmm : sampleMm.pmm = pmmInit := rfl

lemma sampleMm_mem : sampleMm.mem = vmmInit sampleTables fun _ _ => 0 := rfl

lemma sampleMm_kernelPages (a : Nat) (havail : PageSource.Available sampleMm.pmm a) :
  ¬ sampleTables.Has a := by
  obtain ⟨f, hf, rfl, hfree⟩ := havail
  rw [sampleMm_pmm] at hfree
  have hge : reserveEndFrame ≤ f := by
    by_contra hlt
    rw [(pmmInit_bitmap f hf).mpr (not_le.mp hlt)] at hfree
    cases hfree
  have hreserve : reserveEndFrame = 4736 := by decide
  have haddr : 0x41280000 ≤ frameToPhys f := by
    simp only [frameToPhys, pageSize, ramStart]
    omega
  rintro (h | h | h) <;> rw [h] at haddr <;> revert haddr <;> decide

lemma sampleMm_maps {pa : Nat} (haligned : pa &&& 0x1FFFFF = 0) : ∃ mm mm',
  asCreate sampleTables sampleMm = (heapStart, mm) ∧
    asMapBlock mm heapStart userVaBase pa userBlockRwx = (0, mm') := by
  rcases asCreate_wf sampleTables (show 0 < sampleMm.heap.ptr by decide) (by decide)
    pmmInit_wf with ⟨hfull, _⟩ | ⟨hzero, _⟩ | ⟨_, f, mm, heq, htook, _, hpgd, hcopy⟩
  · exact absurd (by decide) hfull
  · cases hzero
  have hfree := htook.holds.free f (Finset.mem_singleton_self f)
  have hother : sampleTables.pgd ≠ frameToPhys f := fun h =>
    sampleMm_kernelPages _ ⟨f, hfree.1, rfl, hfree.2⟩ (.inl h.symm)
  have hempty : mm.mem (frameToPhys f) (tableIndex 3 userVaBase) = 0 := by
    rw [hcopy hother, sampleMm_mem, vmmInit_pgd]
    exact if_neg (by decide)
  have hcount : mm.pmm.freeCount + 1 = bootFrames := by
    rw [← pmmInit_freeCount, ← sampleMm_pmm]
    simpa using htook.holds.freeCount
  obtain ⟨_, code, mm', hmap, _, _, hcode⟩ :=
    htook.mapBlock pmmInit_wf hpgd hempty haligned
  refine ⟨mm, mm', heq, ?_⟩
  rw [← hcode.mpr (by simp only [bootFrames] at hcount; omega)]
  exact hmap

/-- After any sequence of calls, a walk finds the last address mapped successfully to each block
of the user window, and nothing where nothing was mapped. The kernel's tables are as `vmm_init`
left them, and a call changes no other address space's tables. -/
theorem walk_finds_last_mapping {k : KernelTables} {s t : MapState P} {es : List (MapEvent P)}
  (hinit : (mapMachine k).init s) (hrun : (mapMachine k).Run s es t) :
  (∀ as ∈ t.made, ∀ va < 2 ^ 48,
    walk t.mm.mem (t.mm.spaces as).pgd va =
      if tableIndex 3 va = 0 then walk t.mm.mem k.pgd va
      else (t.mapped as (va / 2 ^ 21)).map (· + va % 2 ^ 21)) ∧
  (∀ as va pa attrs, va % 2 ^ 21 ≠ 0 ∨ pa % 2 ^ 21 ≠ 0 →
    asMapBlock t.mm as va pa attrs = (-1, t.mm)) ∧
  (∀ a, k.Has a → t.mm.mem a = s.mm.mem a) ∧
  ∀ e, mapAdmits k t e → ∀ as ∈ t.made, e.target ≠ some as →
    (mapReact k t e).mm.spaces as = t.mm.spaces as ∧
      ∀ a ∈ (t.mm.spaces as).tables, (mapReact k t e).mm.mem a = t.mm.mem a := by
  obtain ⟨⟨mem, hmem⟩, hmade, hpos, hle, hkernelPages⟩ := hinit
  have hpgd : ∀ i, s.mm.mem k.pgd i = if i = 0 then k.pud ||| pteTable else 0 := by
    rw [hmem]
    exact vmmInit_pgd k mem
  have hstart : MapInv k s.mm.mem s := by
    refine ⟨fun _ _ => rfl, hpos, hle, ?_, ?_, ?_, ?_, ?_⟩
    · simp [hmade]
    · rintro a ha (hk | ⟨as, has, _⟩)
      · exact hkernelPages a ha hk
      · simp [hmade] at has
    all_goals simp [hmade]
  have hinv := hrun.invariant (MapInv k s.mm.mem) (fun _ _ h hadmits => h.step hpgd hadmits) hstart
  refine ⟨?_, ?_, hinv.kernel, ?_⟩
  · intro as has va hva
    obtain ⟨tree, htree, hblocks⟩ := hinv.tree as has
    split_ifs with hslot
    · refine htree.walk_shared ?_ hslot
      rw [hinv.kernel _ (.inl rfl), hpgd 0]
      rfl
    · rw [htree.walk_eq hslot, hblocks va hva hslot]
  · exact fun as va pa attrs hbad => asMapBlock_misaligned t.mm as attrs hbad
  · exact fun e hadmits as has htarget => hinv.others_kept hadmits has htarget

theorem walk_finds_last_mapping_first : ∃ t,
  (mapMachine sampleTables).Run ⟨sampleMm, [], fun _ _ => none⟩
    [.create, .map heapStart userVaBase 0x44000000] t ∧
  walk t.mm.mem (t.mm.spaces heapStart).pgd (userVaBase + 5) = some 0x44000005 := by
  obtain ⟨mm, mm', hcreate, hmap⟩ := sampleMm_maps (show 0x44000000 &&& 0x1FFFFF = 0 by decide)
  have hmade : (mapMachine sampleTables).step ⟨sampleMm, [], fun _ _ => none⟩ .create =
      ⟨mm, [heapStart], fun _ _ => none⟩ := by
    have hne : heapStart ≠ 0 := by decide
    simp [mapMachine, mapReact, hcreate, hne]
  have hmapped : (mapMachine sampleTables).step ⟨mm, [heapStart], fun _ _ => none⟩
      (.map heapStart userVaBase 0x44000000) =
      ⟨mm', [heapStart], update (fun _ _ => none) heapStart
        (update (fun _ => none) (userVaBase / 2 ^ 21) (some 0x44000000))⟩ := by
    simp only [mapMachine, mapReact, hmap, if_true]
  have hadmits : (mapMachine sampleTables).enabled ⟨mm, [heapStart], fun _ _ => none⟩
      (.map heapStart userVaBase 0x44000000) :=
    ⟨mem_singleton_self _, by decide, by decide, by decide⟩
  have hrun : (mapMachine sampleTables).Run ⟨sampleMm, [], fun _ _ => none⟩
      [.create, .map heapStart userVaBase 0x44000000]
      ⟨mm', [heapStart], update (fun _ _ => none) heapStart
        (update (fun _ => none) (userVaBase / 2 ^ 21) (some 0x44000000))⟩ := by
    refine .cons trivial ?_
    rw [hmade]
    refine .cons hadmits ?_
    rw [hmapped]
    exact .nil _
  have hinit : (mapMachine sampleTables).init ⟨sampleMm, [], fun _ _ => none⟩ :=
    ⟨⟨_, sampleMm_mem⟩, rfl, by decide, by decide, sampleMm_kernelPages⟩
  have hwalk := (walk_finds_last_mapping hinit hrun).1 heapStart (mem_singleton_self _)
    (userVaBase + 5) (by decide)
  refine ⟨_, hrun, hwalk.trans ?_⟩
  have hsame : (userVaBase + 5) / 2 ^ 21 = userVaBase / 2 ^ 21 := by decide
  rw [if_neg (by decide), hsame]
  dsimp only
  decide

end Aeos.Mem
