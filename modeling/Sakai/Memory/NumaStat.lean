import Sakai.Memory.Stat

/-!
# `memory.numa_stat`

One line a field, with the quantities of its memory nodes as tokens `N<id>=<value>`.

* `MemoryNumaStat.exists_parseNodes_iff`: a field's tokens are accepted exactly when there is one
  and each names a 32-bit node and carries a 64-bit numeral.
* `MemoryNumaStat.parseNodes_of_perm`: the tokens of a node map are read back in any order.
* `MemoryNumaStat.fromStr_eq_ok_iff`: a text is folded line by line; a later line of a field
  replaces its node map.
* `memory_numa_stat_decodes`: every rendering is read back, a repeated line replaces, and a
  malformed line of a known field fails the whole parse.
-/

namespace Sakai

open Lib NamedEnum

/-- A snapshot of `memory.numa_stat`.
Source: `memory/numa_stat.rs`, `MemoryNumaStat`. -/
abbrev MemoryNumaStat :=
  FieldMaps (BTreeMap UInt32 Bytes) (BTreeMap UInt32 Pages) (BTreeMap UInt32 Count)

namespace MemoryNumaStat

variable {T : Type}

/-- One token: the node and its quantity.
Source: `memory/numa_stat.rs`, the `map` closure of `MemoryNumaStat::parse_nodes`. -/
def parseNode (U : Type) [ParseCgroup U T ParseValueError] (raw : Str) (field : String)
    (token : Str) : Parsed (UInt32 × T) := do
  match splitOnce '=' token with
  | none => .error (.invalid raw "node" token .outOfRange)
  | some (node, value) =>
    match stripPrefix ['N'] node with
    | none => .error (.invalid raw "node" token .outOfRange)
    | some digits =>
      let id ← (parseU32 digits).mapError fun error => .invalid raw "node" token (.integer error)
      return (id, ← parseField U raw field value)

/-- The tokens of one field.
Source: `memory/numa_stat.rs`, `MemoryNumaStat::parse_nodes`. -/
def parseNodes (U : Type) [ParseCgroup U T ParseValueError] (raw : Str) (field : String)
    (tokens : List Str) : Parsed (BTreeMap UInt32 T) :=
  if tokens.isEmpty then .error (.missing raw "node")
  else collect (tokens.map (parseNode U raw field))

/-- Source: `memory/numa_stat.rs`, `MemoryNumaStat::insert`. -/
def insert (self : MemoryNumaStat) (raw key : Str) (tokens : List Str) : Parsed MemoryNumaStat :=
  FieldMaps.insert self key (fun field => parseNodes ParseBytes raw field.name tokens)
    (fun field => parseNodes ParsePages raw field.name tokens)
    fun field => parseNodes ParseCount raw field.name tokens

/-- One line of the file.
Source: `memory/numa_stat.rs`, the `try_fold` closure of `MemoryNumaStat::from_str`. -/
def insertLine (contents : Str) (stat : MemoryNumaStat) (line : Str) : Parsed MemoryNumaStat :=
  match splitAsciiWhitespace line with
  | [] => .error (.missing contents "key")
  | key :: tokens => insert stat contents key tokens

/-- Source: `memory/numa_stat.rs`, `MemoryNumaStat::from_str`. -/
def fromStr (contents : Str) : Parsed MemoryNumaStat := do
  let stat ← (nonBlankLines contents).foldlM (insertLine contents) FieldMaps.empty
  FieldMaps.requireBaseline contents stat.bytes
  return stat

/-! ## The tokens of a field -/

/-- The token names the node `id` and carries the number `n`. -/
def IsNode (token : Str) (id : UInt32) (n : UInt64) : Prop :=
  ∃ digits value, token = 'N' :: (digits ++ '=' :: value) ∧ IsNumeral digits id.toNat ∧
    IsNumeral value n.toNat

/-- The printed token of a node. -/
def nodeToken (e : UInt32 × UInt64) : Str :=
  'N' :: (decimal e.1.toNat ++ '=' :: decimal e.2.toNat)

/-- A printed token names its node and carries its number. -/
lemma isNode_nodeToken (e : UInt32 × UInt64) : IsNode (nodeToken e) e.1 e.2 :=
  ⟨_, _, rfl, isNumeral_decimal _, isNumeral_decimal _⟩

/-- The parts of a token that is accepted. -/
lemma parseNode_eq_ok {U : Type} [ParseCgroup U T ParseValueError] {raw : Str} {field : String}
    {token : Str} {e : UInt32 × T} :
    parseNode U raw field token = .ok e ↔
      ∃ digits value, token = 'N' :: (digits ++ '=' :: value) ∧ IsNumeral digits e.1.toNat ∧
        parseCgroup U value = .ok e.2 := by
  obtain ⟨id, q⟩ := e
  constructor
  · intro h
    unfold parseNode at h
    rcases hsplit : splitOnce '=' token with _ | ⟨node, value⟩
    · simp [hsplit] at h
    · obtain ⟨rfl, -⟩ := splitOnce_eq_some_iff.mp hsplit
      rcases hstrip : stripPrefix ['N'] node with _ | digits
      · simp [hsplit, hstrip] at h
      · have hnode := stripPrefix_eq_some_iff.mp hstrip
        simp only [hsplit, hstrip, bind_eq_ok, mapError_eq_ok, parseU32_eq_ok_iff, parseField_eq_ok,
          pure_eq_ok, Prod.mk.injEq] at h
        obtain ⟨id', hid, q', hq, rfl, rfl⟩ := h
        exact ⟨digits, value, by rw [← hnode]; rfl, hid, hq⟩
  · rintro ⟨digits, value, rfl, hid, hq⟩
    have hsep : '=' ∉ 'N' :: digits := by
      rw [List.mem_cons, not_or]
      exact ⟨by decide, hid.not_mem (by decide) (by decide)⟩
    have hsplit : splitOnce '=' ('N' :: (digits ++ '=' :: value)) = some ('N' :: digits, value) :=
      splitOnce_append_cons hsep value
    have hstrip : stripPrefix ['N'] ('N' :: digits) = some digits :=
      stripPrefix_eq_some_iff.mpr rfl
    unfold parseNode
    simp only [hsplit, hstrip, parseU32_eq_ok_iff.mpr hid, Except.mapError, ok_bind,
      parseField_eq_ok.mpr hq]
    rfl

section nodes

variable {U : Type} [ParseCgroup U T ParseValueError] {number : T → UInt64} {raw : Str}
  {field : String} {tokens : List Str}

/-- The tokens of a field are accepted exactly when there is one and each is; the map is built
from all of them. -/
lemma parseNodes_eq_ok_iff {nodes : BTreeMap UInt32 T} :
    parseNodes U raw field tokens = .ok nodes ↔
      tokens ≠ [] ∧ ∃ entries : List (UInt32 × T),
        tokens.map (parseNode U raw field) = entries.map .ok ∧
          Std.ExtTreeMap.ofList entries compare = nodes := by
  unfold parseNodes
  cases tokens with
  | nil => simp
  | cons token tokens =>
      rw [if_neg (by simp), collect_eq_ok_iff]
      exact (and_iff_right (List.cons_ne_nil token tokens)).symm

/-- The unit decodes numerals to the quantities with their numbers. -/
structure Numeric (U : Type) {T : Type} [ParseCgroup U T ParseValueError] (new : UInt64 → T)
    (number : T → UInt64) : Prop where
  /-- What the unit accepts. -/
  accepts : ∀ (s : Str) (q : T), parseCgroup U s = .ok q ↔ IsNumeral s (number q).toNat
  /-- Every number is that of a quantity. -/
  number_new : ∀ n, number (new n) = n
  /-- Quantities with the same number are equal. -/
  new_number : ∀ q, new (number q) = q

variable {new : UInt64 → T}

/-- A token is accepted exactly with its node and number. -/
lemma parseNode_iff (hU : Numeric U new number) {token : Str} {e : UInt32 × T} :
    parseNode U raw field token = .ok e ↔ IsNode token e.1 (number e.2) := by
  rw [parseNode_eq_ok]
  simp only [hU.accepts]
  rfl

/-- **When a field's tokens are accepted.** -/
lemma exists_parseNodes_iff (hU : Numeric U new number) :
    (∃ nodes : BTreeMap UInt32 T, parseNodes U raw field tokens = .ok nodes) ↔
      tokens ≠ [] ∧ ∀ token ∈ tokens, ∃ id n, IsNode token id n := by
  have hnode : ∀ token, (∃ e : UInt32 × T, parseNode U raw field token = .ok e) ↔
      ∃ id n, IsNode token id n := by
    intro token
    simp only [parseNode_iff hU]
    constructor
    · rintro ⟨e, he⟩
      exact ⟨e.1, number e.2, he⟩
    · rintro ⟨id, n, h⟩
      exact ⟨(id, new n), by rwa [hU.number_new]⟩
  simp only [parseNodes_eq_ok_iff, ← hnode]
  rw [← exists_map_eq_map_ok]
  constructor
  · rintro ⟨nodes, hne, entries, hentries, -⟩
    exact ⟨hne, entries, hentries⟩
  · rintro ⟨hne, entries, hentries⟩
    exact ⟨_, hne, entries, hentries, rfl⟩

/-- **The node IDs of a map** are those of its field's tokens. -/
lemma mem_of_parseNodes (hU : Numeric U new number) {nodes : BTreeMap UInt32 T}
    (h : parseNodes U raw field tokens = .ok nodes) :
    (∀ id q, (id, q) ∈ nodes.toList → ∃ token ∈ tokens, IsNode token id (number q)) ∧
    ∀ token ∈ tokens, ∃ id n, IsNode token id n ∧ ∃ q, (id, q) ∈ nodes.toList := by
  obtain ⟨-, entries, hentries, rfl⟩ := parseNodes_eq_ok_iff.mp h
  simp only [Std.ExtTreeMap.mem_toList_iff_getElem?_eq_some, getElem?_ofList]
  constructor
  · intro id q hq
    obtain ⟨token, htoken, he⟩ := exists_mem_of_value hentries (mem_of_lastValue hq)
    exact ⟨token, htoken, (parseNode_iff hU).mp he⟩
  · intro token htoken
    obtain ⟨e, he, hparse⟩ := exists_value_of_mem hentries htoken
    refine ⟨e.1, number e.2, (parseNode_iff hU).mp hparse, ?_⟩
    rcases hlast : lastValue e.1 entries with _ | q
    · exact absurd rfl (lastValue_eq_none_iff.mp hlast e he)
    · exact ⟨q, rfl⟩

/-- **The tokens of a node map are read back**, in any order. -/
lemma parseNodes_of_perm (hU : Numeric U new number) {nodes : BTreeMap UInt32 T}
    {order : List (UInt32 × UInt64)} (hne : order ≠ [])
    (horder : order.Perm (nodes.toList.map fun e => (e.1, number e.2))) :
    parseNodes U raw field (order.map nodeToken) = .ok nodes := by
  have hperm := horder.map fun e => (e.1, new e.2)
  rw [List.map_map] at hperm
  have hid : ((fun e : UInt32 × UInt64 => (e.1, new e.2)) ∘
      fun e : UInt32 × T => (e.1, number e.2)) = id :=
    funext fun e => Prod.ext rfl (hU.new_number e.2)
  rw [hid, List.map_id] at hperm
  refine parseNodes_eq_ok_iff.mpr
    ⟨by simpa using hne, order.map fun e => (e.1, new e.2), ?_, ofList_of_perm_toList hperm⟩
  rw [List.map_map, List.map_map]
  refine List.map_congr_left fun e _ => (parseNode_iff hU).mpr ?_
  have hnode := isNode_nodeToken e
  rwa [← hU.number_new e.2] at hnode

end nodes

/-! ## The units -/

/-- Bytes are their number. -/
lemma numeric_bytes : Numeric ParseBytes Bytes.mk Bytes.value :=
  ⟨fun _ _ => parseBytes_eq_ok_iff, fun _ => rfl, fun _ => rfl⟩

/-- Pages are their number. -/
lemma numeric_pages : Numeric ParsePages Pages.mk Pages.value :=
  ⟨fun _ _ => parsePages_eq_ok_iff, fun _ => rfl, fun _ => rfl⟩

/-- Counts are their number. -/
lemma numeric_count : Numeric ParseCount Count.mk Count.value :=
  ⟨fun _ _ => parseCount_eq_ok_iff, fun _ => rfl, fun _ => rfl⟩

/-- The type of a field's node map. -/
abbrev Nodes (f : MemoryStatField) : Type :=
  f.Value (BTreeMap UInt32 Bytes) (BTreeMap UInt32 Pages) (BTreeMap UInt32 Count)

/-- The nodes of a field with their numbers, by ID. -/
def nodesOf : (f : MemoryStatField) → Nodes f → List (UInt32 × UInt64)
  | .byte _, nodes => nodes.toList.map fun e => (e.1, e.2.value)
  | .page _, nodes => nodes.toList.map fun e => (e.1, e.2.value)
  | .count _, nodes => nodes.toList.map fun e => (e.1, e.2.value)

/-- The tokens of a line, decoded in the unit of its field. -/
def parseTokens (raw : Str) (tokens : List Str) : (f : MemoryStatField) → Parsed (Nodes f)
  | .byte field => parseNodes ParseBytes raw field.name tokens
  | .page field => parseNodes ParsePages raw field.name tokens
  | .count field => parseNodes ParseCount raw field.name tokens

section tokens

variable {raw : Str} {tokens : List Str} {f : MemoryStatField}

/-- When the tokens of a line are accepted, whatever the unit. -/
lemma exists_parseTokens_iff :
    (∃ nodes, parseTokens raw tokens f = .ok nodes) ↔
      tokens ≠ [] ∧ ∀ token ∈ tokens, ∃ id n, IsNode token id n := by
  cases f with
  | byte field => exact exists_parseNodes_iff numeric_bytes
  | page field => exact exists_parseNodes_iff numeric_pages
  | count field => exact exists_parseNodes_iff numeric_count

/-- The node IDs of a line are those of its tokens, whatever the unit. -/
lemma mem_of_parseTokens {nodes : Nodes f} (h : parseTokens raw tokens f = .ok nodes) :
    (∀ e ∈ nodesOf f nodes, ∃ token ∈ tokens, IsNode token e.1 e.2) ∧
    ∀ token ∈ tokens, ∃ id n, IsNode token id n ∧ ∃ m, (id, m) ∈ nodesOf f nodes := by
  have hunit : ∀ {T : Type} {number : T → UInt64} {map : BTreeMap UInt32 T},
      ((∀ id q, (id, q) ∈ map.toList → ∃ token ∈ tokens, IsNode token id (number q)) ∧
        ∀ token ∈ tokens, ∃ id n, IsNode token id n ∧ ∃ q, (id, q) ∈ map.toList) →
      (∀ e ∈ map.toList.map (fun e => (e.1, number e.2)), ∃ token ∈ tokens, IsNode token e.1 e.2) ∧
        ∀ token ∈ tokens, ∃ id n, IsNode token id n ∧
          ∃ m, (id, m) ∈ map.toList.map fun e => (e.1, number e.2) := by
    rintro T number map ⟨hsound, hcomplete⟩
    constructor
    · intro e he
      obtain ⟨⟨id, q⟩, hq, rfl⟩ := List.mem_map.mp he
      exact hsound id q hq
    · intro token htoken
      obtain ⟨id, n, hnode, q, hq⟩ := hcomplete token htoken
      exact ⟨id, n, hnode, number q, List.mem_map.mpr ⟨(id, q), hq, rfl⟩⟩
  cases f with
  | byte field => exact hunit (mem_of_parseNodes numeric_bytes h)
  | page field => exact hunit (mem_of_parseNodes numeric_pages h)
  | count field => exact hunit (mem_of_parseNodes numeric_count h)

/-- The tokens of a node map are read back, whatever the unit. -/
lemma parseTokens_of_perm {nodes : Nodes f} {order : List (UInt32 × UInt64)} (hne : order ≠ [])
    (horder : order.Perm (nodesOf f nodes)) :
    parseTokens raw (order.map nodeToken) f = .ok nodes := by
  cases f with
  | byte field => exact parseNodes_of_perm numeric_bytes hne horder
  | page field => exact parseNodes_of_perm numeric_pages hne horder
  | count field => exact parseNodes_of_perm numeric_count hne horder

end tokens

/-! ## The lines of a file -/

/-- A line is inserted as its key and tokens. -/
lemma insertLine_of_keyed {contents line : Str} {stat : MemoryNumaStat} {row : Str × List Str}
    (h : splitAsciiWhitespace line = keyedRow row) :
    insertLine contents stat line = insert stat contents row.1 row.2 := by
  unfold insertLine
  rw [h]
  rfl

/-- The lines of a text are folded as its keys and tokens. -/
lemma foldlM_insertLine {contents : Str} (stat : MemoryNumaStat) {lines : List Str}
    {rows : List (Str × List Str)} (h : lines.map splitAsciiWhitespace = rows.map keyedRow) :
    lines.foldlM (insertLine contents) stat =
      FieldMaps.insertAll (parseTokens contents) stat rows := by
  induction lines generalizing stat rows with
  | nil =>
      rw [List.map_nil, eq_comm, List.map_eq_nil_iff] at h
      rw [h]
      rfl
  | cons line lines ih =>
      rcases rows with _ | ⟨row, rows⟩
      · cases h
      · rw [List.map_cons, List.map_cons, List.cons.injEq] at h
        rw [List.foldlM_cons, insertLine_of_keyed h.1]
        exact congrArg _ (funext fun stat => ih stat h.2)

/-- **What a text is read as.** -/
lemma fromStr_eq_ok_iff {contents : Str} {stat : MemoryNumaStat} :
    fromStr contents = .ok stat ↔
      FieldMaps.insertAll (parseTokens contents) FieldMaps.empty (keyedRowsOf contents) =
        .ok stat ∧
      stat.bytes[MemoryStatByteField.anon]? ≠ none ∧
      stat.bytes[MemoryStatByteField.file]? ≠ none := by
  unfold fromStr
  rw [foldlM_insertLine FieldMaps.empty (rowsOf_eq_map_keyedRow contents), bind_eq_ok]
  constructor
  · rintro ⟨result, hinsert, hrest⟩
    obtain ⟨_, hbase, hresult⟩ := bind_eq_ok.mp hrest
    obtain rfl := pure_eq_ok.mp hresult
    exact ⟨hinsert, FieldMaps.requireBaseline_eq_ok_iff.mp hbase⟩
  · rintro ⟨hinsert, hbase⟩
    refine ⟨stat, hinsert, bind_eq_ok.mpr ⟨(), ?_, rfl⟩⟩
    exact FieldMaps.requireBaseline_eq_ok_iff.mpr hbase

/-- A token that names no node with a quantity: it has no `=`, what stands before the first `=` is
not `N` and a 32-bit numeral, or what stands after it is not a 64-bit numeral. -/
def Malformed (token : Str) : Prop :=
  '=' ∉ token ∨
  ∃ node value, '=' ∉ node ∧ token = node ++ '=' :: value ∧
    ((∀ digits, node = 'N' :: digits → ∀ id : UInt32, ¬ IsNumeral digits id.toNat) ∨
      ¬ MemoryStat.IsU64 value)

/-- A malformed token names no node. -/
lemma Malformed.not_isNode {token : Str} (h : Malformed token) (id : UInt32) (n : UInt64) :
    ¬ IsNode token id n := by
  rintro ⟨digits, value, rfl, hid, hn⟩
  have hsep : '=' ∉ 'N' :: digits := by
    rw [List.mem_cons, not_or]
    exact ⟨by decide, hid.not_mem (by decide) (by decide)⟩
  rcases h with hno | ⟨node, value', hnode, htoken, hbad⟩
  · apply hno
    simp
  · have hsplit : splitOnce '=' (('N' :: digits) ++ '=' :: value) = some (node, value') := by
      rw [List.cons_append, htoken, splitOnce_append_cons hnode]
    rw [splitOnce_append_cons hsep, Option.some.injEq, Prod.mk.injEq] at hsplit
    obtain ⟨rfl, rfl⟩ := hsplit
    rcases hbad with hbad | hbad
    · exact hbad digits rfl id hid
    · exact hbad ⟨n, hn⟩

section accepted

variable {text : Str} {stat : MemoryNumaStat}

/-- **A line of a known field is accepted with all its tokens.** -/
lemma isNode_of_fromStr (h : fromStr text = .ok stat) {key : Str} {tokens : List Str}
    (hrow : (key, tokens) ∈ keyedRowsOf text) (hname : MemoryStat.IsFieldName key) :
    tokens ≠ [] ∧ ∀ token ∈ tokens, ∃ id n, IsNode token id n := by
  obtain ⟨f, hf⟩ := MemoryStat.isFieldName_iff.mp hname
  obtain ⟨hinsert, -⟩ := fromStr_eq_ok_iff.mp h
  exact exists_parseTokens_iff.mp ((FieldMaps.insertAll_eq_ok_iff.mp hinsert).1 _ hrow f hf)

/-- **A malformed line of a known field fails the parse.** -/
lemma exists_error_of_malformed {key : Str} {tokens : List Str}
    (hrow : (key, tokens) ∈ keyedRowsOf text) (hname : MemoryStat.IsFieldName key)
    (hbad : tokens = [] ∨ ∃ token ∈ tokens, Malformed token) :
    ∃ error, fromStr text = .error error := by
  rcases h : fromStr text with error | stat
  · exact ⟨error, rfl⟩
  · obtain ⟨hne, hnodes⟩ := isNode_of_fromStr h hrow hname
    rcases hbad with hnil | ⟨token, htoken, hmal⟩
    · exact absurd hnil hne
    · obtain ⟨id, n, hnode⟩ := hnodes token htoken
      exact absurd hnode (hmal.not_isNode id n)

/-- **The node map of a field** is that of its last line. -/
lemma get_eq_some_iff (h : fromStr text = .ok stat) (f : MemoryStatField) (nodes : Nodes f) :
    stat.get f = some nodes ↔
      ∃ tokens, lastValue (NamedEnum.key f) (keyedRowsOf text) = some tokens ∧
        parseTokens text tokens f = .ok nodes := by
  obtain ⟨hinsert, -⟩ := fromStr_eq_ok_iff.mp h
  rw [(FieldMaps.insertAll_eq_ok_iff.mp hinsert).2 f]
  rcases lastValue (NamedEnum.key f) (keyedRowsOf text) with _ | tokens
  · have hempty : (FieldMaps.empty : MemoryNumaStat).get f = none := by cases f <;> rfl
    simp [hempty]
  · simp only [Option.elim_some, Option.some.injEq, exists_eq_left']
    cases parseTokens text tokens f <;> simp [Except.toOption]

end accepted

/-! ## Reading back -/

/-- The rows list the value: one line for each field that is set, with one token for each of its
nodes, the lines and the tokens in any order, among lines of unknown keys. -/
def Lists (stat : MemoryNumaStat) (rows : List (Str × List Str)) : Prop :=
  FieldMaps.Listed
    (fun f nodes tokens =>
      ∃ order : List (UInt32 × UInt64), order.Perm (nodesOf f nodes) ∧ tokens = order.map nodeToken)
    stat rows

/-- The node map of a set field is not empty.
Source: `memory/numa_stat.rs`, `MemoryNumaStat::parse_nodes` makes no empty map. -/
def NonEmpty (stat : MemoryNumaStat) : Prop :=
  ∀ f nodes, stat.get f = some nodes → nodesOf f nodes ≠ []

/-- There is no field with an empty node map where none is set. -/
lemma NonEmpty.nil : NonEmpty FieldMaps.empty := by
  intro f nodes hget
  cases f <;> cases hget

/-- A field may be set to a node map that is not empty. -/
lemma NonEmpty.set {stat : MemoryNumaStat} (h : NonEmpty stat) {f : MemoryStatField}
    {nodes : Nodes f} (hne : nodesOf f nodes ≠ []) : NonEmpty (stat.set f nodes) := by
  intro g nodes' hget
  by_cases hfg : f = g
  · subst hfg
    rw [FieldMaps.get_set_self, Option.some.injEq] at hget
    rwa [← hget]
  · rw [FieldMaps.get_set_of_ne stat hfg] at hget
    exact h g nodes' hget

/-- **A listing is read back.** -/
lemma fromStr_of_lists {stat : MemoryNumaStat} {rows : List (Str × List Str)} {text : Str}
    (hanon : stat.bytes[MemoryStatByteField.anon]? ≠ none)
    (hfile : stat.bytes[MemoryStatByteField.file]? ≠ none) (hne : NonEmpty stat)
    (hlists : Lists stat rows) (hlayout : Layout (rows.map keyedRow) text) :
    fromStr text = .ok stat := by
  obtain rfl := keyedRowsOf_of_layout hlayout
  refine fromStr_eq_ok_iff.mpr ⟨?_, hanon, hfile⟩
  -- The decoder needs the maps to be non-empty, which `Listed` knows for the maps of `stat` only.
  refine FieldMaps.insertAll_of_listed
    (R := fun f nodes tokens => nodesOf f nodes ≠ [] ∧ ∃ order : List (UInt32 × UInt64),
      order.Perm (nodesOf f nodes) ∧ tokens = order.map nodeToken)
    ?_ ⟨fun f tokens hrow => ?_, hlists.complete⟩
  · rintro f nodes tokens ⟨hnodes, order, horder, rfl⟩
    refine parseTokens_of_perm (fun hnil => hnodes ?_) horder
    rw [hnil] at horder
    exact List.nil_perm.mp horder
  · obtain ⟨nodes, hget, horder⟩ := hlists.sound f tokens hrow
    exact ⟨nodes, hget, hne f nodes hget, horder⟩

end MemoryNumaStat

/-- **`memory.numa_stat` decoding undoes encoding.** A listing of a value with the baseline and no
empty node map is read back as the value. What is read holds, for each field, the node map of
the field's last line: the nodes are those of its tokens, whatever an earlier line held. A line
of a known field with no token or with a malformed one fails the parse. -/
theorem memory_numa_stat_decodes :
    (∀ (stat : MemoryNumaStat) rows text, stat.bytes[MemoryStatByteField.anon]? ≠ none →
      stat.bytes[MemoryStatByteField.file]? ≠ none → stat.NonEmpty → stat.Lists rows →
      Layout (rows.map keyedRow) text → MemoryNumaStat.fromStr text = .ok stat) ∧
    (∀ text stat, MemoryNumaStat.fromStr text = .ok stat →
      ∀ (f : MemoryStatField) (nodes : MemoryNumaStat.Nodes f), stat.get f = some nodes ↔
        ∃ tokens, lastValue (key f) (keyedRowsOf text) = some tokens ∧
          MemoryNumaStat.parseTokens text tokens f = .ok nodes) ∧
    (∀ text tokens (f : MemoryStatField) (nodes : MemoryNumaStat.Nodes f),
      MemoryNumaStat.parseTokens text tokens f = .ok nodes →
      (∀ e ∈ MemoryNumaStat.nodesOf f nodes, ∃ token ∈ tokens,
        MemoryNumaStat.IsNode token e.1 e.2) ∧
      ∀ token ∈ tokens, ∃ id n, MemoryNumaStat.IsNode token id n ∧
        ∃ m, (id, m) ∈ MemoryNumaStat.nodesOf f nodes) ∧
    ∀ text key tokens, (key, tokens) ∈ keyedRowsOf text → MemoryStat.IsFieldName key →
      (tokens = [] ∨ ∃ token ∈ tokens, MemoryNumaStat.Malformed token) →
      ∃ error, MemoryNumaStat.fromStr text = .error error := by
  refine ⟨fun stat rows text hanon hfile hne hlists hlayout => ?_,
    fun text stat h f nodes => MemoryNumaStat.get_eq_some_iff h f nodes,
    fun text tokens f nodes h => MemoryNumaStat.mem_of_parseTokens h,
    fun text key tokens hrow hname hbad => ?_⟩
  · exact MemoryNumaStat.fromStr_of_lists hanon hfile hne hlists hlayout
  · exact MemoryNumaStat.exists_error_of_malformed hrow hname hbad

/-- A value with two fields, one of them on two nodes. -/
def twoNodeStat : MemoryNumaStat :=
  (FieldMaps.empty.set (.byte .anon)
      (Std.ExtTreeMap.ofList [(0, ⟨4096⟩), (1, ⟨0⟩)] compare)).set
    (.byte .file) (Std.ExtTreeMap.ofList [(1, ⟨8192⟩)] compare)

/-- Its lines, with the nodes in another order, and one of an unknown key. -/
def twoNodeRows : List (Str × List Str) :=
  [("file".toList, ["N1=8192".toList]), ("future".toList, ["x".toList]),
    ("anon".toList, ["N1=0".toList, "N0=4096".toList])]

/-- The lines list the value. -/
lemma twoNodeStat_lists : twoNodeStat.Lists twoNodeRows := by
  refine FieldMaps.Listed.set (FieldMaps.Listed.skip (FieldMaps.Listed.set FieldMaps.Listed.nil ?_
    ⟨[(1, 0), (0, 4096)], ?_, ?_⟩) _ ?_) ?_ ⟨[(1, 8192)], ?_, ?_⟩ <;> decide +kernel

/-- The nodes are read back in any order, and what has an unknown key is skipped. -/
theorem memory_numa_stat_decodes_listing :
    MemoryNumaStat.fromStr (unlines (twoNodeRows.map keyedRow)) = .ok twoNodeStat :=
  memory_numa_stat_decodes.1 twoNodeStat twoNodeRows _ (by decide +kernel) (by decide +kernel)
    ((MemoryNumaStat.NonEmpty.nil.set (by decide +kernel)).set (by decide +kernel))
    twoNodeStat_lists (layout_unlines (by decide))

end Sakai
