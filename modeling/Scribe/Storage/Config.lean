import Scribe.Core.EnvelopeJson
import Scribe.Commands.Writers

/-!
# The repository configuration

`scribe_config_save` writes `config.json` as a pretty yyjson object: `author_id`,
`author_role` and `pg_connection_string`, each only when it is set, then `watched_tables`,
an array of the entries that are not `NULL`, when the table count is not zero.  `fputs`
writes the text, and neither its result nor that of `fclose` is looked at.
`scribe_config_load` reads the file back with `yyjson_read`, `yyjson_obj_get` and
`yyjson_get_str`, and `strdup`s each string; a `watched_tables` entry that is not a string
stays `NULL`.

`configLoad_configSave` is the round trip: a save of a configuration whose strings are all
UTF-8 succeeds, and loading the file it wrote gives the configuration back with its `NULL`
table entries dropped; a string that is not UTF-8 makes the save return
`SCRIBE_ERR_NOMEM` before the file is opened.
-/

namespace Scribe

/-- `scribe_config_t`.  `watchedTables` holds the `watched_table_count` entries of
`watched_tables`, `none` for a `NULL` one; a `NULL` array is the empty list. -/
structure ScribeConfig where
  authorId : Option CStr
  authorRole : Option CStr
  pgConnectionString : Option CStr
  watchedTables : List (Option CStr)
  deriving DecidableEq

/-- The fields of the configuration the writers read. -/
def ScribeConfig.toConfig (c : ScribeConfig) : Config := ⟨c.authorId, c.authorRole⟩

/-- The `watched_tables` member `scribe_config_save` adds when the count is not zero: the
entries that are not `NULL`. -/
def tablesMember (tables : List (Option CStr)) : List (Bytes × JsonVal) :=
  if tables = [] then []
  else [(ascii "watched_tables", .arr ((tables.filterMap id).map fun t => .str t.bytes))]

/-- The document `scribe_config_save` builds. -/
def configJson (c : ScribeConfig) : JsonVal :=
  .obj (strMember "author_id" c.authorId ++ strMember "author_role" c.authorRole ++
    strMember "pg_connection_string" c.pgConnectionString ++ tablesMember c.watchedTables)

/-- `scribe_config_save`: the bytes `fputs` puts in `config.json`, or the error; `opened` is
whether `fopen(config_path, "w")` succeeds. -/
def configSave (opened : Bool) (c : ScribeConfig) : Except ScribeError Bytes :=
  match yyjsonWrite (configJson c) with
  | none => .error .nomem
  | some json => if opened then .ok (strlenPrefix json) else .error .io

/-- The `watched_tables` `scribe_config_load` reads: an entry per array element, `NULL`
where the element is not a string; none when the member is missing or not an array. -/
def readTables : Option JsonVal → List (Option CStr)
  | some (.arr items) => items.map fun item => (getStr (some item)).map CStr.ofBytes
  | _ => []

/-- `scribe_config_load` on the bytes of `config.json`, `none` when `fopen` fails: `NULL`
for an empty file and for text yyjson cannot read. -/
def configLoad : Option Bytes → Option ScribeConfig
  | none => none
  | some [] => none
  | some text => (yyjsonRead text).map fun root =>
      ⟨readStr (some root) "author_id", readStr (some root) "author_role",
        readStr (some root) "pg_connection_string",
        readTables (objGet (ascii "watched_tables") (some root))⟩

/-- Whether every string a save writes is UTF-8. -/
def ScribeConfig.utf8 (c : ScribeConfig) : Bool :=
  strUtf8 c.authorId && strUtf8 c.authorRole && strUtf8 c.pgConnectionString &&
    c.watchedTables.all strUtf8

/-- What a save keeps of a configuration: the `NULL` table entries go. -/
def ScribeConfig.saved (c : ScribeConfig) : ScribeConfig :=
  { c with watchedTables := (c.watchedTables.filterMap id).map some }

/-! ## Writing -/

theorem tablesMember_writable (tables : List (Option CStr)) (level : Nat) :
    (∀ m ∈ tablesMember tables, utf8Valid m.1 = true ∧ (writeVal level m.2).isSome = true) ↔
      tables.all strUtf8 = true := by
  unfold tablesMember
  split_ifs with hnil
  · simp [hnil]
  · rw [List.forall_mem_singleton, writeVal_arr_isSome, List.forall_mem_map]
    simp only [show utf8Valid (ascii "watched_tables") = true by decide, writeVal_str_isSome,
      true_and, List.all_eq_true, List.mem_filterMap, id_eq]
    constructor
    · intro h t ht
      cases t with
      | none => rfl
      | some t => exact h t ⟨_, ht, rfl⟩
    · rintro h t ⟨_, ht, rfl⟩
      exact h _ ht

/-- The save's document can be written exactly when every string is UTF-8. -/
theorem configJson_isSome (c : ScribeConfig) : (yyjsonWrite (configJson c)).isSome = c.utf8 := by
  rw [Bool.eq_iff_iff, yyjsonWrite, configJson, writeVal_obj_isSome, List.forall_mem_append,
    List.forall_mem_append, List.forall_mem_append, strMember_writable "author_id" (by decide),
    strMember_writable "author_role" (by decide),
    strMember_writable "pg_connection_string" (by decide), tablesMember_writable]
  simp only [ScribeConfig.utf8, Bool.and_eq_true, and_assoc]

/-! ## Reading back -/

theorem find?_tablesMember_of_ne {key : Bytes} (hk : ascii "watched_tables" ≠ key)
    (tables : List (Option CStr)) : (tablesMember tables).find? (fun m => m.1 == key) = none := by
  unfold tablesMember; split_ifs <;> simp [hk]

/-- The lookups `scribe_config_load` makes in the document a save wrote. -/
theorem objGet_configJson (c : ScribeConfig) :
    objGet (ascii "author_id") (some (configJson c)) =
        (strMember "author_id" c.authorId).head?.map Prod.snd ∧
      objGet (ascii "author_role") (some (configJson c)) =
        (strMember "author_role" c.authorRole).head?.map Prod.snd ∧
      objGet (ascii "pg_connection_string") (some (configJson c)) =
        (strMember "pg_connection_string" c.pgConnectionString).head?.map Prod.snd ∧
      objGet (ascii "watched_tables") (some (configJson c)) =
        (tablesMember c.watchedTables).head?.map Prod.snd := by
  refine ⟨?_, ?_, ?_, ?_⟩ <;>
  simp (disch := decide) only [configJson, objGet_obj, List.find?_append, find?_strMember_of_ne,
    find?_strMember_self, find?_tablesMember_of_ne, Option.none_or, Option.or_none]
  unfold tablesMember
  split_ifs <;> simp

theorem readTables_tablesMember (tables : List (Option CStr)) :
    readTables ((tablesMember tables).head?.map Prod.snd) = (tables.filterMap id).map some := by
  unfold tablesMember
  split_ifs with hnil
  · simp [readTables, hnil]
  · simp [readTables, getStr, CStr.ofBytes_bytes]

/-- The configuration read from the document of a configuration is the one saved. -/
theorem configLoad_of_yyjsonWrite {c : ScribeConfig} {json : Bytes}
    (hw : yyjsonWrite (configJson c) = some json) : configLoad (some json) = some c.saved := by
  obtain ⟨hid, hrole, hconn, htables⟩ := objGet_configJson c
  obtain ⟨b, t, rfl, -⟩ := writeVal_head' hw
  simp only [configLoad, yyjsonRead_yyjsonWrite hw, Option.map_some', readStr_of_find? hid,
    readStr_of_find? hrole, readStr_of_find? hconn, htables, readTables_tablesMember,
    ScribeConfig.saved]

/-- A save of a configuration whose strings are UTF-8 succeeds, and loading what it wrote
gives the configuration back without its `NULL` table entries; any other configuration
makes the save fail with `SCRIBE_ERR_NOMEM`, whether or not the file would open. -/
theorem configLoad_configSave (c : ScribeConfig) :
    (c.utf8 = true → ∃ json, configSave true c = .ok json ∧ configLoad (some json) = some c.saved) ∧
      (c.utf8 = false → ∀ opened, configSave opened c = .error .nomem) := by
  have hsome := configJson_isSome c
  constructor
  · intro hutf
    obtain ⟨json, hw⟩ := Option.isSome_iff_exists.mp (hsome.trans hutf)
    refine ⟨json, ?_, configLoad_of_yyjsonWrite hw⟩
    simp only [configSave, hw, if_true, strlenPrefix_yyjsonWrite hw]
  · intro hutf opened
    cases hw : yyjsonWrite (configJson c) with
    | none => simp only [configSave, hw]
    | some _ => simp [hw, hutf] at hsome

/-- The configuration `scribe_repo_init` saves into a new repository. -/
def repoInitConfig : ScribeConfig :=
  ⟨some (CStr.lit "user:anonymous"), some (CStr.lit "developer"), none, []⟩

/-- A configuration with a connection string and a `NULL` between its two watched tables. -/
def shopConfig : ScribeConfig :=
  ⟨some (CStr.lit "user:alice"), some (CStr.lit "developer"), some (CStr.lit "postgres://localhost/shop"),
    [some (CStr.lit "orders"), none, some (CStr.lit "customers")]⟩

theorem configLoad_configSave_shop :
    shopConfig.utf8 = true ∧
      (∃ json, configSave true shopConfig = .ok json ∧ configLoad (some json) = some shopConfig.saved) ∧
      shopConfig.saved = { shopConfig with watchedTables := [some (CStr.lit "orders"), some (CStr.lit "customers")] } :=
  ⟨by decide, (configLoad_configSave shopConfig).1 (by decide), rfl⟩

end Scribe
