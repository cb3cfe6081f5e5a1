import Sakai.Flat

/-!
# The fields of `memory.stat` and `memory.numa_stat`

Three tables of field names, one for each unit, and a record of three maps. A key is looked up in
the tables in turn; a key of none of them is ignored.

* `MemoryStatField` joins the tables: no name belongs to two of them, and every field is recovered
  from its own printed name (`NamedEnum.fromStr?_key`).
* `FieldMaps.insert_eq`: the cascade over the tables is one lookup in the joined table.
* `FieldMaps.insertAll_eq_ok_iff`: a whole file is accepted exactly when every line with a known
  key is, and then each field holds what its last line carries.
-/

namespace Sakai

open Lib

/-! ## The three tables -/

/-- Memory statistics in bytes.
Source: `memory/stat.rs`, `MemoryStatByteField`. -/
inductive MemoryStatByteField
  | anon
  | file
  | kernel
  | kernelStack
  | pagetables
  | secPagetables
  | percpu
  | sock
  | vmalloc
  | shmem
  | zswap
  | zswapIncomp
  | zswapped
  | fileMapped
  | fileDirty
  | fileWriteback
  | swapcached
  | anonThp
  | fileThp
  | shmemThp
  | inactiveAnon
  | activeAnon
  | inactiveFile
  | activeFile
  | unevictable
  | slabReclaimable
  | slabUnreclaimable
  | slab
  | hugetlb
  deriving DecidableEq, Repr

namespace MemoryStatByteField

/-- The printed name of a field. -/
def name : MemoryStatByteField → String
  | anon => "anon"
  | file => "file"
  | kernel => "kernel"
  | kernelStack => "kernel_stack"
  | pagetables => "pagetables"
  | secPagetables => "sec_pagetables"
  | percpu => "percpu"
  | sock => "sock"
  | vmalloc => "vmalloc"
  | shmem => "shmem"
  | zswap => "zswap"
  | zswapIncomp => "zswap_incomp"
  | zswapped => "zswapped"
  | fileMapped => "file_mapped"
  | fileDirty => "file_dirty"
  | fileWriteback => "file_writeback"
  | swapcached => "swapcached"
  | anonThp => "anon_thp"
  | fileThp => "file_thp"
  | shmemThp => "shmem_thp"
  | inactiveAnon => "inactive_anon"
  | activeAnon => "active_anon"
  | inactiveFile => "inactive_file"
  | activeFile => "active_file"
  | unevictable => "unevictable"
  | slabReclaimable => "slab_reclaimable"
  | slabUnreclaimable => "slab_unreclaimable"
  | slab => "slab"
  | hugetlb => "hugetlb"

/-- The fields, in declaration order. -/
def all : List MemoryStatByteField :=
  [anon, file, kernel, kernelStack, pagetables, secPagetables, percpu, sock, vmalloc,
    shmem, zswap, zswapIncomp, zswapped, fileMapped, fileDirty, fileWriteback, swapcached,
    anonThp, fileThp, shmemThp, inactiveAnon, activeAnon, inactiveFile, activeFile, unevictable,
    slabReclaimable, slabUnreclaimable, slab, hugetlb]

end MemoryStatByteField

/-- Memory statistics in pages.
Source: `memory/stat.rs`, `MemoryStatPageField`. -/
inductive MemoryStatPageField
  | pswpin
  | pswpout
  | pgscan
  | pgsteal
  | pgscanKswapd
  | pgscanDirect
  | pgscanKhugepaged
  | pgscanProactive
  | pgstealKswapd
  | pgstealDirect
  | pgstealKhugepaged
  | pgstealProactive
  | pgrefill
  | pgactivate
  | pgdeactivate
  | pglazyfree
  | pglazyfreed
  | swpinZero
  | swpoutZero
  | zswpin
  | zswpout
  | zswpwb
  | numaPagesMigrated
  | numaPteUpdates
  | pgdemoteKswapd
  | pgdemoteDirect
  | pgdemoteKhugepaged
  | pgdemoteProactive
  | pgpromoteSuccess
  deriving DecidableEq, Repr

namespace MemoryStatPageField

/-- The printed name of a field. -/
def name : MemoryStatPageField → String
  | pswpin => "pswpin"
  | pswpout => "pswpout"
  | pgscan => "pgscan"
  | pgsteal => "pgsteal"
  | pgscanKswapd => "pgscan_kswapd"
  | pgscanDirect => "pgscan_direct"
  | pgscanKhugepaged => "pgscan_khugepaged"
  | pgscanProactive => "pgscan_proactive"
  | pgstealKswapd => "pgsteal_kswapd"
  | pgstealDirect => "pgsteal_direct"
  | pgstealKhugepaged => "pgsteal_khugepaged"
  | pgstealProactive => "pgsteal_proactive"
  | pgrefill => "pgrefill"
  | pgactivate => "pgactivate"
  | pgdeactivate => "pgdeactivate"
  | pglazyfree => "pglazyfree"
  | pglazyfreed => "pglazyfreed"
  | swpinZero => "swpin_zero"
  | swpoutZero => "swpout_zero"
  | zswpin => "zswpin"
  | zswpout => "zswpout"
  | zswpwb => "zswpwb"
  | numaPagesMigrated => "numa_pages_migrated"
  | numaPteUpdates => "numa_pte_updates"
  | pgdemoteKswapd => "pgdemote_kswapd"
  | pgdemoteDirect => "pgdemote_direct"
  | pgdemoteKhugepaged => "pgdemote_khugepaged"
  | pgdemoteProactive => "pgdemote_proactive"
  | pgpromoteSuccess => "pgpromote_success"

/-- The fields, in declaration order. -/
def all : List MemoryStatPageField :=
  [pswpin, pswpout, pgscan, pgsteal, pgscanKswapd, pgscanDirect, pgscanKhugepaged,
    pgscanProactive, pgstealKswapd, pgstealDirect, pgstealKhugepaged, pgstealProactive, pgrefill,
    pgactivate, pgdeactivate, pglazyfree, pglazyfreed, swpinZero, swpoutZero, zswpin, zswpout,
    zswpwb, numaPagesMigrated, numaPteUpdates, pgdemoteKswapd, pgdemoteDirect, pgdemoteKhugepaged,
    pgdemoteProactive, pgpromoteSuccess]

end MemoryStatPageField

/-- Memory statistics that count events.
Source: `memory/stat.rs`, `MemoryStatCountField`. -/
inductive MemoryStatCountField
  | workingsetRefaultAnon
  | workingsetRefaultFile
  | workingsetActivateAnon
  | workingsetActivateFile
  | workingsetRestoreAnon
  | workingsetRestoreFile
  | workingsetNodereclaim
  | pgfault
  | pgmajfault
  | thpFaultAlloc
  | thpCollapseAlloc
  | thpSwpout
  | thpSwpoutFallback
  | numaHintFaults
  deriving DecidableEq, Repr

namespace MemoryStatCountField

/-- The printed name of a field. -/
def name : MemoryStatCountField → String
  | workingsetRefaultAnon => "workingset_refault_anon"
  | workingsetRefaultFile => "workingset_refault_file"
  | workingsetActivateAnon => "workingset_activate_anon"
  | workingsetActivateFile => "workingset_activate_file"
  | workingsetRestoreAnon => "workingset_restore_anon"
  | workingsetRestoreFile => "workingset_restore_file"
  | workingsetNodereclaim => "workingset_nodereclaim"
  | pgfault => "pgfault"
  | pgmajfault => "pgmajfault"
  | thpFaultAlloc => "thp_fault_alloc"
  | thpCollapseAlloc => "thp_collapse_alloc"
  | thpSwpout => "thp_swpout"
  | thpSwpoutFallback => "thp_swpout_fallback"
  | numaHintFaults => "numa_hint_faults"

/-- The fields, in declaration order. -/
def all : List MemoryStatCountField :=
  [workingsetRefaultAnon, workingsetRefaultFile, workingsetActivateAnon,
    workingsetActivateFile, workingsetRestoreAnon, workingsetRestoreFile, workingsetNodereclaim,
    pgfault, pgmajfault, thpFaultAlloc, thpCollapseAlloc, thpSwpout, thpSwpoutFallback,
    numaHintFaults]

end MemoryStatCountField

/-- **No name belongs to two fields**, of one table or of two. -/
lemma nodup_memory_names :
    (MemoryStatByteField.all.map MemoryStatByteField.name ++
      (MemoryStatPageField.all.map MemoryStatPageField.name ++
        MemoryStatCountField.all.map MemoryStatCountField.name)).Nodup := by
  decide +kernel

instance : NamedEnum MemoryStatByteField where
  all := MemoryStatByteField.all
  name := MemoryStatByteField.name
  mem_all := by intro f; cases f <;> decide
  nodup_names := nodup_memory_names.of_append_left

instance : NamedEnum MemoryStatPageField where
  all := MemoryStatPageField.all
  name := MemoryStatPageField.name
  mem_all := by intro f; cases f <;> decide
  nodup_names := nodup_memory_names.of_append_right.of_append_left

instance : NamedEnum MemoryStatCountField where
  all := MemoryStatCountField.all
  name := MemoryStatCountField.name
  mem_all := by intro f; cases f <;> decide
  nodup_names := nodup_memory_names.of_append_right.of_append_right

/-- A field of any of the three tables. -/
inductive MemoryStatField
  | byte (field : MemoryStatByteField)
  | page (field : MemoryStatPageField)
  | count (field : MemoryStatCountField)
  deriving DecidableEq, Repr

namespace MemoryStatField

/-- The printed name of a field. -/
def name : MemoryStatField → String
  | byte field => field.name
  | page field => field.name
  | count field => field.name

instance : NamedEnum MemoryStatField where
  all := NamedEnum.all.map byte ++ (NamedEnum.all.map page ++ NamedEnum.all.map count)
  name := name
  mem_all := by
    intro f
    cases f with
    | byte field => simp [NamedEnum.mem_all field]
    | page field => simp [NamedEnum.mem_all field]
    | count field => simp [NamedEnum.mem_all field]
  nodup_names := by
    rw [List.map_append, List.map_append, List.map_map, List.map_map, List.map_map]
    exact nodup_memory_names

end MemoryStatField

open NamedEnum MemoryStatField

/-! ## The maps -/

/-- The three maps of a memory statistics file.
Source: `memory/stat.rs`, `MemoryStat`; `memory/numa_stat.rs`, `MemoryNumaStat`. -/
structure FieldMaps (B P C : Type) where
  /-- Byte quantities. -/
  bytes : BTreeMap MemoryStatByteField B
  /-- Page quantities. -/
  pages : BTreeMap MemoryStatPageField P
  /-- Event counts. -/
  counts : BTreeMap MemoryStatCountField C

/-- The type of a field's value. -/
@[reducible] def MemoryStatField.Value (B P C : Type) : MemoryStatField → Type
  | byte _ => B
  | page _ => P
  | count _ => C

namespace FieldMaps

variable {B P C : Type}

/-- No field is set.
Source: the derived `Default`. -/
def empty : FieldMaps B P C := ⟨∅, ∅, ∅⟩

/-- Tries the byte, page and count tables in turn, and sets the field that has the key to its
decoded value.
Source: `memory/stat.rs`, `MemoryStat::insert`; `memory/numa_stat.rs`, `MemoryNumaStat::insert`. -/
def insert (self : FieldMaps B P C) (key : Str) (byte : MemoryStatByteField → Parsed B)
    (page : MemoryStatPageField → Parsed P) (count : MemoryStatCountField → Parsed C) :
    Parsed (FieldMaps B P C) := do
  match (fromStr? key : Option MemoryStatByteField) with
  | some field => return { self with bytes := self.bytes.insert field (← byte field) }
  | none =>
    match (fromStr? key : Option MemoryStatPageField) with
    | some field => return { self with pages := self.pages.insert field (← page field) }
    | none =>
      match (fromStr? key : Option MemoryStatCountField) with
      | some field => return { self with counts := self.counts.insert field (← count field) }
      | none => return self

/-- The value of a field. -/
def get (self : FieldMaps B P C) : (f : MemoryStatField) → Option (f.Value B P C)
  | .byte field => self.bytes[field]?
  | .page field => self.pages[field]?
  | .count field => self.counts[field]?

/-- The maps with one field set. -/
def set (self : FieldMaps B P C) : (f : MemoryStatField) → f.Value B P C → FieldMaps B P C
  | .byte field, v => { self with bytes := self.bytes.insert field v }
  | .page field, v => { self with pages := self.pages.insert field v }
  | .count field, v => { self with counts := self.counts.insert field v }

/-- Maps with the same field values are equal. -/
lemma ext_get {a b : FieldMaps B P C} (h : ∀ f, a.get f = b.get f) : a = b := by
  obtain ⟨bytes, pages, counts⟩ := a
  obtain ⟨bytes', pages', counts'⟩ := b
  have hbytes : bytes = bytes' := Std.ExtTreeMap.ext_getElem? fun {field} => h (.byte field)
  have hpages : pages = pages' := Std.ExtTreeMap.ext_getElem? fun {field} => h (.page field)
  have hcounts : counts = counts' := Std.ExtTreeMap.ext_getElem? fun {field} => h (.count field)
  rw [hbytes, hpages, hcounts]

/-- A field that was set has its value. -/
@[simp] lemma get_set_self (self : FieldMaps B P C) (f : MemoryStatField) (v : f.Value B P C) :
    (self.set f v).get f = some v := by
  cases f with
  | byte field => exact Std.ExtTreeMap.getElem?_insert_self
  | page field => exact Std.ExtTreeMap.getElem?_insert_self
  | count field => exact Std.ExtTreeMap.getElem?_insert_self

/-- Setting a field leaves the others unchanged. -/
lemma get_set_of_ne (self : FieldMaps B P C) {f g : MemoryStatField} (hfg : f ≠ g)
    (v : f.Value B P C) : (self.set f v).get g = self.get g := by
  have hother : ∀ {F V : Type} [DecidableEq F] [NamedEnum F] (m : BTreeMap F V) {a b : F} (w : V),
      a ≠ b → (m.insert a w)[b]? = m[b]? := by
    intro F V _ _ m a b w hab
    rw [Std.ExtTreeMap.getElem?_insert, if_neg]
    rwa [Std.LawfulEqCmp.compare_eq_iff_eq]
  cases f <;> cases g <;>
    first
    | rfl
    | exact hother _ _ fun h => hfg (by rw [h])

/-- **The cascade over the tables is one lookup in the joined table.** -/
theorem insert_eq (self : FieldMaps B P C) (key : Str)
    (parse : (f : MemoryStatField) → Parsed (f.Value B P C)) :
    self.insert key (fun field => parse (.byte field)) (fun field => parse (.page field))
        (fun field => parse (.count field)) =
      match (fromStr? key : Option MemoryStatField) with
      | some f => (parse f).map (self.set f)
      | none => .ok self := by
  have hjoined : ∀ f : MemoryStatField, NamedEnum.key f = key →
      (fromStr? key : Option MemoryStatField) = some f := fun f h => fromStr?_eq_some_iff.mpr h
  unfold insert
  rcases hbyte : (fromStr? key : Option MemoryStatByteField) with _ | field
  · rcases hpage : (fromStr? key : Option MemoryStatPageField) with _ | field
    · rcases hcount : (fromStr? key : Option MemoryStatCountField) with _ | field
      · have hnone : (fromStr? key : Option MemoryStatField) = none := by
          rw [fromStr?_eq_none_iff]
          intro f
          cases f with
          | byte field => exact fromStr?_eq_none_iff.mp hbyte field
          | page field => exact fromStr?_eq_none_iff.mp hpage field
          | count field => exact fromStr?_eq_none_iff.mp hcount field
        rw [hnone]
        rfl
      · have hfield := fromStr?_eq_some_iff.mp hcount
        rw [hjoined (.count field) hfield]
        cases parse (.count field) <;> rfl
    · have hfield := fromStr?_eq_some_iff.mp hpage
      rw [hjoined (.page field) hfield]
      cases parse (.page field) <;> rfl
  · have hfield := fromStr?_eq_some_iff.mp hbyte
    rw [hjoined (.byte field) hfield]
    cases parse (.byte field) <;> rfl

/-! ## Whole files -/

section insertAll

variable {I : Type}

/-- The lines of a file, folded into the maps; `parse` decodes what follows the key.
Source: `memory/stat.rs`, `MemoryStat::from_str`; `memory/numa_stat.rs`,
`MemoryNumaStat::from_str`, the `try_fold`. -/
def insertAll (parse : I → (f : MemoryStatField) → Parsed (f.Value B P C))
    (self : FieldMaps B P C) (rows : List (Str × I)) : Parsed (FieldMaps B P C) :=
  rows.foldlM
    (fun self row => self.insert row.1 (fun field => parse row.2 (.byte field))
      (fun field => parse row.2 (.page field)) fun field => parse row.2 (.count field))
    self

variable {parse : I → (f : MemoryStatField) → Parsed (f.Value B P C)}

/-- The first line is looked up in the joined table, and the rest folded. -/
lemma insertAll_cons (self : FieldMaps B P C) (row : Str × I) (rows : List (Str × I)) :
    insertAll parse self (row :: rows) =
      (match (fromStr? row.1 : Option MemoryStatField) with
        | some f => (parse row.2 f).map (self.set f)
        | none => .ok self) >>= fun self => insertAll parse self rows := by
  rw [← insert_eq self row.1 (parse row.2)]
  exact List.foldlM_cons ..

/-- A line that sets a field is the last with its key until another is. -/
lemma elim_lastValue_cons {rows : List (Str × I)} {row : Str × I} {g : MemoryStatField}
    {v : g.Value B P C} (self : FieldMaps B P C) (hg : NamedEnum.key g = row.1)
    (hparse : parse row.2 g = .ok v) (f : MemoryStatField) :
    (lastValue (NamedEnum.key f) (row :: rows)).elim (self.get f)
        (fun i => (parse i f).toOption) =
      (lastValue (NamedEnum.key f) rows).elim ((self.set g v).get f)
        fun i => (parse i f).toOption := by
  rw [lastValue]
  by_cases hf : g = f
  · subst hf
    rw [if_pos hg.symm, get_set_self]
    cases lastValue (NamedEnum.key g) rows with
    | none => simp [hparse, Except.toOption]
    | some i => rfl
  · have hne : row.1 ≠ NamedEnum.key f := fun h => hf (key_injective (hg.trans h))
    rw [if_neg hne, Option.or_none, get_set_of_ne self hf]

/-- **A whole file.** It is accepted exactly when every line with a known key is, and then each
field holds what the last line with its key carries. -/
theorem insertAll_eq_ok_iff {rows : List (Str × I)} {self result : FieldMaps B P C} :
    insertAll parse self rows = .ok result ↔
      (∀ row ∈ rows, ∀ f : MemoryStatField, NamedEnum.key f = row.1 →
        ∃ v, parse row.2 f = .ok v) ∧
      ∀ f, result.get f =
        (lastValue (NamedEnum.key f) rows).elim (self.get f) fun i => (parse i f).toOption := by
  induction rows generalizing self with
  | nil =>
      constructor
      · intro h
        have heq : self = result := Except.ok.inj h
        exact ⟨by simp, fun f => by rw [heq]; rfl⟩
      · rintro ⟨-, h⟩
        exact congrArg Except.ok (ext_get fun f => (h f).symm)
  | cons row rows ih =>
      rw [insertAll_cons]
      rcases hkey : (fromStr? row.1 : Option MemoryStatField) with _ | g
      · have hne : ∀ f : MemoryStatField, row.1 ≠ NamedEnum.key f := fun f h =>
          fromStr?_eq_none_iff.mp hkey f h.symm
        show insertAll parse self rows = .ok result ↔ _
        rw [ih]
        refine and_congr ?_ (forall_congr' fun f => ?_)
        · rw [List.forall_mem_cons]
          exact ⟨fun h => ⟨fun f hf => absurd hf.symm (hne f), h⟩, fun h => h.2⟩
        · rw [lastValue, if_neg (hne f), Option.or_none]
      · have hg : NamedEnum.key g = row.1 := fromStr?_eq_some_iff.mp hkey
        show ((parse row.2 g).map (self.set g) >>= fun self => insertAll parse self rows) =
          .ok result ↔ _
        rcases hparse : parse row.2 g with e | v
        · show Except.error e = Except.ok result ↔ _
          refine ⟨fun h => (by cases h), fun h => ?_⟩
          obtain ⟨v, hv⟩ := h.1 row List.mem_cons_self g hg
          rw [hparse] at hv
          cases hv
        · show insertAll parse (self.set g v) rows = .ok result ↔ _
          rw [ih]
          refine and_congr ?_ (forall_congr' fun f => ?_)
          · rw [List.forall_mem_cons]
            refine ⟨fun h => ⟨fun f hf => ?_, h⟩, fun h => h.2⟩
            have hfg : f = g := key_injective (hf.trans hg.symm)
            subst hfg
            exact ⟨v, hparse⟩
          · rw [elim_lastValue_cons self hg hparse]

/-- Lines whose known keys are all accepted are folded into some maps. -/
lemma exists_insertAll_eq_ok {rows : List (Str × I)} {self : FieldMaps B P C}
    (h : ∀ row ∈ rows, ∀ f : MemoryStatField, NamedEnum.key f = row.1 →
      ∃ v, parse row.2 f = .ok v) :
    ∃ result, insertAll parse self rows = .ok result := by
  induction rows generalizing self with
  | nil => exact ⟨self, rfl⟩
  | cons row rows ih =>
      have hrow := h row List.mem_cons_self
      have hrows := fun r hr => h r (List.mem_cons_of_mem row hr)
      rw [insertAll_cons]
      rcases hkey : (fromStr? row.1 : Option MemoryStatField) with _ | g
      · exact ih hrows
      · obtain ⟨v, hv⟩ := hrow g (fromStr?_eq_some_iff.mp hkey)
        show ∃ result, ((parse row.2 g).map (self.set g) >>= fun self =>
          insertAll parse self rows) = .ok result
        rw [hv]
        exact ih hrows

/-- Lines with unknown keys are skipped. -/
lemma insertAll_filter_known (self : FieldMaps B P C) (rows : List (Str × I)) :
    insertAll parse self
        (rows.filter fun row => (fromStr? row.1 : Option MemoryStatField).isSome) =
      insertAll parse self rows := by
  induction rows generalizing self with
  | nil => rfl
  | cons row rows ih =>
      rcases hkey : (fromStr? row.1 : Option MemoryStatField) with _ | g
      · rw [List.filter_cons_of_neg (by simp [hkey]), ih, insertAll_cons, hkey]
        rfl
      · rw [List.filter_cons_of_pos (by simp [hkey]), insertAll_cons, insertAll_cons]
        exact congrArg _ (funext ih)

/-- Decoders with equal outcomes fold to equal outcomes. -/
lemma outcome_insertAll_congr {parse' : I → (f : MemoryStatField) → Parsed (f.Value B P C)}
    (h : ∀ i f, outcome (parse i f) = outcome (parse' i f)) (self : FieldMaps B P C)
    (rows : List (Str × I)) :
    outcome (insertAll parse self rows) = outcome (insertAll parse' self rows) := by
  induction rows generalizing self with
  | nil => rfl
  | cons row rows ih =>
      rw [insertAll_cons, insertAll_cons]
      refine outcome_bind_congr ?_ ih
      rcases (fromStr? row.1 : Option MemoryStatField) with _ | g
      · rfl
      · show outcome ((parse row.2 g).map (self.set g)) =
          outcome ((parse' row.2 g).map (self.set g))
        rw [outcome_map, outcome_map, h]

/-- The lines show the maps: each line with a known key shows the value of its field, each field
that is set has a line, and lines with unknown keys are arbitrary. -/
structure Listed (R : (f : MemoryStatField) → f.Value B P C → I → Prop) (maps : FieldMaps B P C)
    (rows : List (Str × I)) : Prop where
  /-- A line with a known key shows the value of its field. -/
  sound : ∀ f i, (NamedEnum.key f, i) ∈ rows → ∃ v, maps.get f = some v ∧ R f v i
  /-- A field that is set has a line. -/
  complete : ∀ f v, maps.get f = some v → ∃ i, (NamedEnum.key f, i) ∈ rows

section listed

variable {R : (f : MemoryStatField) → f.Value B P C → I → Prop} {maps : FieldMaps B P C}
  {rows : List (Str × I)}

/-- No lines show that no field is set. -/
lemma Listed.nil : Listed R (empty : FieldMaps B P C) [] where
  sound := by
    rintro f i ⟨⟩
  complete := by
    intro f v hv
    cases f <;> cases hv

/-- A line of a field that had none shows its value. -/
lemma Listed.set (h : Listed R maps rows) {f : MemoryStatField} {v : f.Value B P C} {i : I}
    (hnew : NamedEnum.key f ∉ rows.map Prod.fst) (hR : R f v i) :
    Listed R (maps.set f v) ((NamedEnum.key f, i) :: rows) where
  sound g j hrow := by
    rcases List.mem_cons.mp hrow with heq | hmem
    · obtain ⟨hkey, rfl⟩ := Prod.mk.inj heq
      obtain rfl := key_injective hkey
      exact ⟨v, get_set_self maps g v, hR⟩
    · have hne : f ≠ g := by
        rintro rfl
        exact hnew (List.mem_map_of_mem hmem)
      rw [get_set_of_ne maps hne]
      exact h.sound g j hmem
  complete g w hget := by
    by_cases hfg : f = g
    · subst hfg
      exact ⟨i, List.mem_cons_self⟩
    · rw [get_set_of_ne maps hfg] at hget
      obtain ⟨j, hj⟩ := h.complete g w hget
      exact ⟨j, List.mem_cons_of_mem _ hj⟩

/-- A line of an unknown key shows nothing. -/
lemma Listed.skip (h : Listed R maps rows) {key : Str} (i : I)
    (hkey : (fromStr? key : Option MemoryStatField) = none) :
    Listed R maps ((key, i) :: rows) where
  sound f j hrow := by
    rcases List.mem_cons.mp hrow with heq | hmem
    · exact absurd (Prod.mk.inj heq).1 (fromStr?_eq_none_iff.mp hkey f)
    · exact h.sound f j hmem
  complete f v hget := by
    obtain ⟨j, hj⟩ := h.complete f v hget
    exact ⟨j, List.mem_cons_of_mem _ hj⟩

end listed

/-- **Lines that show the maps are read back**, in any order. -/
theorem insertAll_of_listed {R : (f : MemoryStatField) → f.Value B P C → I → Prop}
    (hR : ∀ f v i, R f v i → parse i f = .ok v) {self : FieldMaps B P C}
    {rows : List (Str × I)} (h : Listed R self rows) :
    insertAll parse empty rows = .ok self := by
  rw [insertAll_eq_ok_iff]
  constructor
  · rintro ⟨key, i⟩ hrow f rfl
    obtain ⟨v, -, hv⟩ := h.sound f i hrow
    exact ⟨v, hR f v i hv⟩
  · intro f
    rcases hlast : lastValue (NamedEnum.key f) rows with _ | i
    · have hempty : (empty : FieldMaps B P C).get f = none := by cases f <;> rfl
      rw [Option.elim_none, hempty, Option.eq_none_iff_forall_ne_some]
      intro v hv
      obtain ⟨i, hi⟩ := h.complete f v hv
      exact lastValue_eq_none_iff.mp hlast _ hi rfl
    · obtain ⟨v, hget, hv⟩ := h.sound f i (mem_of_lastValue hlast)
      rw [Option.elim_some, hget, hR f v i hv]
      rfl

end insertAll

/-! ## The baseline -/

/-- Every kernel reports `anon` and `file`.
Source: `memory/stat.rs`, `MemoryStatByteField::require_baseline`. -/
def requireBaseline {V : Type} (raw : Str) (fields : BTreeMap MemoryStatByteField V) :
    Parsed Unit :=
  forM [MemoryStatByteField.anon, MemoryStatByteField.file] fun field =>
    if fields.contains field then .ok () else .error (.missing raw field.name)

/-- The baseline is met exactly when both fields are present. -/
lemma requireBaseline_eq_ok_iff {V : Type} {raw : Str} {fields : BTreeMap MemoryStatByteField V} :
    requireBaseline raw fields = .ok () ↔
      fields[MemoryStatByteField.anon]? ≠ none ∧ fields[MemoryStatByteField.file]? ≠ none := by
  have hcontains : ∀ field, fields.contains field = (fields[field]?).isSome :=
    fun field => Std.ExtTreeMap.contains_eq_isSome_getElem?
  unfold requireBaseline
  rw [List.forM_cons, List.forM_cons, List.forM_nil, hcontains, hcontains]
  cases fields[MemoryStatByteField.anon]? <;> cases fields[MemoryStatByteField.file]? <;> simp

/-- The retained input is the only trace of it in the baseline's outcome. -/
lemma outcome_requireBaseline {V : Type} (raw₁ raw₂ : Str)
    (fields : BTreeMap MemoryStatByteField V) :
    outcome (requireBaseline raw₁ fields) = outcome (requireBaseline raw₂ fields) := by
  have hfield : ∀ field, outcome (if fields.contains field then .ok ()
        else .error (.missing raw₁ field.name) : Parsed Unit) =
      outcome (if fields.contains field then .ok ()
        else .error (.missing raw₂ field.name) : Parsed Unit) := by
    intro field
    split_ifs <;> rfl
  unfold requireBaseline
  rw [List.forM_cons, List.forM_cons, List.forM_nil, List.forM_cons, List.forM_cons, List.forM_nil]
  exact outcome_bind_congr (hfield _) fun _ => outcome_bind_congr (hfield _) fun _ => rfl

end FieldMaps

end Sakai
