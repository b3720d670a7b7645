import Scribe.Core.Envelope

/-!
# Reading an envelope back: `scribe_envelope_from_json`

`scribe_envelope_from_json` reads the text with yyjson and fills a new envelope member by
member, with `yyjson_obj_get` and `yyjson_get_str`.  Digests go through
`scribe_hash_from_hex`, strings through `strdup`, and the timestamp through
`yyjson_get_int`, which returns a C `int`: the low 32 bits of the value, sign-extended
back to `time_t` by the cast.

The text does not carry the digests themselves: every digest member reads as the one the
shared `hex` slot holds (`hexSlot`).  `Envelope.shown` is the envelope the text describes,
each non-zero digest replaced by that one.  `envelopeFromJson_toJson` states exactly what
reading back a serialized envelope gives: the shown envelope, with the timestamp cut to 32
bits; and `envelopeJson_eq_iff` that two envelopes serialize alike exactly when they show
alike.  `envelopeVerify_accepts_tampered_digest` follows: a digest changed in a finalized
envelope goes unseen by `scribe_envelope_verify`, whatever the digest function.
-/

namespace Scribe

/-- `yyjson_obj_get`: the value of the first member with the key; `NULL` for anything but
an object. -/
def objGet (key : Bytes) : Option JsonVal → Option JsonVal
  | some (.obj members) => (members.find? fun m => m.1 == key).map Prod.snd
  | _ => none

/-- `yyjson_get_str`: the bytes of a string value, `NULL` for anything else. -/
def getStr : Option JsonVal → Option Bytes
  | some (.str s) => some s
  | _ => none

/-- `yyjson_is_int`: the value of an integer. -/
def getInt : Option JsonVal → Option Int
  | some (.int n) => some n
  | _ => none

/-- `(time_t)yyjson_get_int(val)`: the value as a C `int`, then sign-extended. -/
def timeOfInt (n : Int) : BitVec 64 := (BitVec.ofInt 32 n).signExtend 64

/-- A string member of an object, copied with `strdup`. -/
def readStr (obj : Option JsonVal) (key : String) : Option CStr :=
  (getStr (objGet (ascii key) obj)).map CStr.ofBytes

/-- A digest member decoded with `scribe_hash_from_hex` over `out`, when it is a string. -/
def readHex (obj : Option JsonVal) (key : String) (out : Hash) : Hash :=
  match getStr (objGet (ascii key) obj) with
  | some hex => (hashFromHex hex out).2
  | none => out

/-- One element of `changes`, added with `scribe_envelope_add_change`; its digests start
as `{0}`. -/
def readChange (env : Envelope) (change : JsonVal) : Envelope :=
  addChange env (readStr (some change) "table") (readStr (some change) "operation")
    (readStr (some change) "pk") (some (readHex (some change) "before_hash" Hash.zero))
    (some (readHex (some change) "after_hash" Hash.zero))

/-- The `author` member: `scribe_envelope_set_author` with `id` and `role`, then the email
when there is one. -/
def readAuthor (env : Envelope) (author : Option JsonVal) : Envelope :=
  match author with
  | none => env
  | some _ =>
      let env := setAuthor env (readStr author "id") (readStr author "role")
      match readStr author "email" with
      | some email => setAuthorEmail env (some email)
      | none => env

/-- The `process` member, in the same way. -/
def readProcess (env : Envelope) (process : Option JsonVal) : Envelope :=
  match process with
  | none => env
  | some _ =>
      let env := setProcess env (readStr process "name") (readStr process "version")
        (readStr process "params")
      match readStr process "source" with
      | some source => setProcessSource env (some source)
      | none => env

/-- The envelope `scribe_envelope_from_json` fills from the document `doc` it read. -/
def envelopeOfDoc (now : BitVec 64) (doc : JsonVal) : Envelope :=
  let root := some doc
  let env := envelopeNew now
  let env := env.withCommitId (readHex root "commit_id" env.commitId)
  let env := { env with parentId := readHex root "parent_id" env.parentId }
  let env := { env with treeHash := readHex root "tree_hash" env.treeHash }
  let env := readAuthor env (objGet (ascii "author") root)
  let env := readProcess env (objGet (ascii "process") root)
  let env := match getInt (objGet (ascii "timestamp") root) with
    | some n => { env with timestamp := timeOfInt n }
    | none => env
  let env := match getStr (objGet (ascii "message") root) with
    | some message => setMessage env (some (CStr.ofBytes message))
    | none => env
  match objGet (ascii "changes") root with
  | some (.arr changes) => changes.foldl readChange env
  | _ => env

/-- `scribe_envelope_from_json`: `NULL` when yyjson cannot read the text. -/
def envelopeFromJson (now : BitVec 64) (json : Bytes) : Option Envelope :=
  (yyjsonRead (strlenPrefix json)).map (envelopeOfDoc now)

/-! ## What the text shows -/

/-- A digest as the text of `scribe_envelope_to_json` gives it back: a zero digest has no
member, and any other reads as `slot`. -/
def shownHash (slot h : Hash) : Hash := if hashIsZero h then Hash.zero else slot

/-- A change as the text shows it. -/
def Change.shown (slot : Hash) (change : Change) : Change :=
  { change with beforeHash := shownHash slot change.beforeHash
                afterHash := shownHash slot change.afterHash }

/-- The envelope the text of `scribe_envelope_to_json` describes: every non-zero digest
replaced by the one the shared `hex` slot holds. -/
def Envelope.shown (env : Envelope) : Envelope :=
  { env with
    commitId := shownHash (hexSlot env) env.commitId
    parentId := shownHash (hexSlot env) env.parentId
    treeHash := shownHash (hexSlot env) env.treeHash
    changes := env.changes.map (Change.shown (hexSlot env)) }

/-! ## Looking members up -/

theorem objGet_obj (key : Bytes) (members : List (Bytes × JsonVal)) :
    objGet key (some (.obj members)) = (members.find? fun m => m.1 == key).map Prod.snd := rfl

theorem find?_hexMember_of_ne {k : String} {key : Bytes} (hk : ascii k ≠ key) (slot h : Hash) :
    (hexMember k slot h).find? (fun m => m.1 == key) = none := by
  unfold hexMember; split_ifs <;> simp [hk]

theorem find?_strMember_of_ne {k : String} {key : Bytes} (hk : ascii k ≠ key) (s : Option CStr) :
    (strMember k s).find? (fun m => m.1 == key) = none := by
  cases s <;> simp [strMember, hk]

theorem find?_hexMember_self (k : String) (slot h : Hash) :
    (hexMember k slot h).find? (fun m => m.1 == ascii k) = (hexMember k slot h).head? := by
  unfold hexMember; split_ifs <;> simp

theorem find?_strMember_self (k : String) (s : Option CStr) :
    (strMember k s).find? (fun m => m.1 == ascii k) = (strMember k s).head? := by
  cases s <;> simp [strMember]

theorem find?_cons_key_of_ne {k key : Bytes} (hk : k ≠ key) (v : JsonVal)
    (rest : List (Bytes × JsonVal)) :
    ((k, v) :: rest).find? (fun m => m.1 == key) = rest.find? (fun m => m.1 == key) :=
  List.find?_cons_of_neg _ (by simpa using hk)

theorem find?_cons_key (key : Bytes) (v : JsonVal) (rest : List (Bytes × JsonVal)) :
    ((key, v) :: rest).find? (fun m => m.1 == key) = some (key, v) :=
  List.find?_cons_of_pos _ (by simp)

theorem find?_changesMember_of_ne {key : Bytes} (hk : ascii "changes" ≠ key) (slot : Hash)
    (changes : List Change) : (changesMember slot changes).find? (fun m => m.1 == key) = none := by
  unfold changesMember; split_ifs <;> simp [hk]

theorem find?_changesMember_self (slot : Hash) (changes : List Change) :
    (changesMember slot changes).find? (fun m => m.1 == ascii "changes") =
      (changesMember slot changes).head? := by
  unfold changesMember; split_ifs <;> simp

/-- Decoding a digest member over a zero digest gives the digest as the text shows it. -/
theorem readHex_of_find? {obj : Option JsonVal} {k : String} {slot h : Hash}
    (hfind : objGet (ascii k) obj = (hexMember k slot h).head?.map Prod.snd) :
    readHex obj k Hash.zero = shownHash slot h := by
  unfold hexMember at hfind
  unfold shownHash
  split_ifs at hfind ⊢
  · simp [readHex, hfind, getStr]
  · simp [readHex, hfind, getStr, hashFromHex_hashToHex]

theorem objGet_envelopeJson_parentId (env : Envelope) :
    objGet (ascii "parent_id") (some (envelopeJson env)) =
      (hexMember "parent_id" (hexSlot env) env.parentId).head?.map Prod.snd := by
  simp (disch := decide) only [envelopeJson, objGet_obj, List.find?_append,
    find?_hexMember_of_ne, find?_strMember_of_ne, find?_hexMember_self, find?_cons_key_of_ne,
    List.find?_nil, find?_changesMember_of_ne, Option.none_or, Option.or_none]


theorem readStr_of_find? {obj : Option JsonVal} {k : String} {s : Option CStr}
    (hfind : objGet (ascii k) obj = (strMember k s).head?.map Prod.snd) :
    readStr obj k = s := by
  cases s <;> simp [readStr, hfind, strMember, getStr, CStr.ofBytes_bytes]

/-- The lookups in a document `scribe_envelope_to_json` built. -/
theorem objGet_envelopeJson (env : Envelope) :
    objGet (ascii "commit_id") (some (envelopeJson env)) =
        (hexMember "commit_id" (hexSlot env) env.commitId).head?.map Prod.snd ∧
      objGet (ascii "parent_id") (some (envelopeJson env)) =
        (hexMember "parent_id" (hexSlot env) env.parentId).head?.map Prod.snd ∧
      objGet (ascii "tree_hash") (some (envelopeJson env)) =
        (hexMember "tree_hash" (hexSlot env) env.treeHash).head?.map Prod.snd ∧
      objGet (ascii "author") (some (envelopeJson env)) = some (authorJson env.author) ∧
      objGet (ascii "process") (some (envelopeJson env)) = some (processJson env.process) ∧
      objGet (ascii "timestamp") (some (envelopeJson env)) = some (.int env.timestamp.toInt) ∧
      objGet (ascii "message") (some (envelopeJson env)) =
        (strMember "message" env.message).head?.map Prod.snd ∧
      objGet (ascii "changes") (some (envelopeJson env)) =
        (changesMember (hexSlot env) env.changes).head?.map Prod.snd := by
  refine ⟨?_, ?_, ?_, ?_, ?_, ?_, ?_, ?_⟩ <;>
  simp (disch := decide) only [envelopeJson, objGet_obj, List.find?_append,
    find?_hexMember_of_ne, find?_strMember_of_ne, find?_hexMember_self, find?_strMember_self,
    find?_cons_key_of_ne, find?_cons_key, List.find?_nil, find?_changesMember_of_ne,
    find?_changesMember_self, Option.none_or, Option.or_none, Option.or_some, Option.map_some']


theorem readAuthor_authorJson (env : Envelope) (author : Author)
    (hemail : env.author.email = none) :
    readAuthor env (some (authorJson author)) = { env with author := author } := by
  have hlookup : readStr (some (authorJson author)) "id" = author.id ∧
      readStr (some (authorJson author)) "role" = author.role ∧
      readStr (some (authorJson author)) "email" = author.email := by
    refine ⟨readStr_of_find? ?_, readStr_of_find? ?_, readStr_of_find? ?_⟩ <;>
    simp (disch := decide) only [authorJson, objGet_obj, List.find?_append, find?_strMember_of_ne,
      find?_strMember_self, Option.none_or, Option.or_none]
  obtain ⟨hid, hrole, hmail⟩ := hlookup
  obtain ⟨id, role, email⟩ := author
  cases email <;> simp_all [readAuthor, setAuthor, setAuthorEmail]

theorem readProcess_processJson (env : Envelope) (process : Process)
    (hsource : env.process.source = none) :
    readProcess env (some (processJson process)) = { env with process := process } := by
  have hlookup : readStr (some (processJson process)) "name" = process.name ∧
      readStr (some (processJson process)) "version" = process.version ∧
      readStr (some (processJson process)) "params" = process.params ∧
      readStr (some (processJson process)) "source" = process.source := by
    refine ⟨readStr_of_find? ?_, readStr_of_find? ?_, readStr_of_find? ?_,
      readStr_of_find? ?_⟩ <;>
    simp (disch := decide) only [processJson, objGet_obj, List.find?_append,
      find?_strMember_of_ne, find?_strMember_self, Option.none_or, Option.or_none]
  obtain ⟨hname, hversion, hparams, hsrc⟩ := hlookup
  obtain ⟨name, version, params, source⟩ := process
  cases source <;> simp_all [readProcess, setProcess, setProcessSource]

theorem readChange_changeJson (env : Envelope) (slot : Hash) (change : Change) :
    readChange env (changeJson slot change) =
      { env with changes := env.changes ++ [change.shown slot] } := by
  have hlookup : readStr (some (changeJson slot change)) "table" = change.tableName ∧
      readStr (some (changeJson slot change)) "operation" = change.operation ∧
      readStr (some (changeJson slot change)) "pk" = change.primaryKey ∧
      readHex (some (changeJson slot change)) "before_hash" Hash.zero =
        shownHash slot change.beforeHash ∧
      readHex (some (changeJson slot change)) "after_hash" Hash.zero =
        shownHash slot change.afterHash := by
    refine ⟨readStr_of_find? ?_, readStr_of_find? ?_, readStr_of_find? ?_,
      readHex_of_find? ?_, readHex_of_find? ?_⟩ <;>
    simp (disch := decide) only [changeJson, objGet_obj, List.find?_append,
      find?_strMember_of_ne, find?_strMember_self, find?_hexMember_of_ne, find?_hexMember_self,
      Option.none_or, Option.or_none]
  obtain ⟨htable, hop, hpk, hbefore, hafter⟩ := hlookup
  simp only [readChange, addChange, htable, hop, hpk, hbefore, hafter, Option.getD_some,
    Change.shown]

theorem foldl_readChange (env : Envelope) (slot : Hash) (changes : List Change) :
    (changes.map (changeJson slot)).foldl readChange env =
      { env with changes := env.changes ++ changes.map (Change.shown slot) } := by
  induction changes generalizing env with
  | nil => simp
  | cons change changes ih =>
      rw [List.map_cons, List.foldl_cons, readChange_changeJson, ih]
      simp


theorem strlenPrefix_yyjsonWrite {v : JsonVal} {w : Bytes} (hw : yyjsonWrite v = some w) :
    strlenPrefix w = w :=
  List.takeWhile_eq_self_iff.mpr fun c hc => by simpa using writeVal_ne_zero 0 v w hw c hc

/-- The envelope read from the document of an envelope is the envelope the text shows, with
the timestamp cut to a C `int` and sign-extended. -/
theorem envelopeOfDoc_envelopeJson (now : BitVec 64) (env : Envelope) :
    envelopeOfDoc now (envelopeJson env) =
      { env.shown with timestamp := timeOfInt env.timestamp.toInt } := by
  obtain ⟨hcommit, hparent, htree, hauthor, hprocess, htime, hmessage, hchanges⟩ :=
    objGet_envelopeJson env
  have hc := readHex_of_find? hcommit
  have hp := readHex_of_find? hparent
  have ht := readHex_of_find? htree
  simp only [envelopeOfDoc, hauthor, hprocess, htime, getInt, hmessage, hchanges]
  simp only [envelopeNew, Envelope.withCommitId] at hc hp ht ⊢
  rw [hc, hp, ht, readAuthor_authorJson _ _ rfl, readProcess_processJson _ _ rfl]
  rcases env with ⟨commitId, parentId, treeHash, author, process, timestamp, message, changes⟩
  cases message <;> cases changes <;>
    simp [strMember, changesMember, getStr, setMessage, foldl_readChange, readChange_changeJson,
      CStr.ofBytes_bytes, Envelope.shown]

/-- Reading back a serialized envelope gives the envelope the text shows, every non-zero
digest read as the last one written, with the timestamp cut to a C `int` and sign-extended. -/
theorem envelopeFromJson_toJson (now : BitVec 64) {env : Envelope} {json : Bytes}
    (hjson : envelopeToJson env = some json) :
    envelopeFromJson now json = some { env.shown with timestamp := timeOfInt env.timestamp.toInt } := by
  rw [envelopeFromJson, strlenPrefix_yyjsonWrite hjson, yyjsonRead_yyjsonWrite hjson,
    Option.map_some', envelopeOfDoc_envelopeJson]

/-- The envelope of `ordersEnvelope` stamped `2^31` seconds (2038-01-19): it reads back with
`parent_id` and every change digest as `0x04…04`, the last digest written, and the
timestamp as `-2^31`. -/
theorem envelopeFromJson_toJson_2038 :
    ∃ json R, envelopeToJson { ordersEnvelope with timestamp := 0x80000000 } = some json ∧
      envelopeFromJson 0 json = some R ∧ R.parentId = Hash.ofByte 4 ∧
      R.changes.map Change.afterHash = [Hash.ofByte 4, Hash.ofByte 4] ∧
      R.timestamp = 0xFFFFFFFF80000000 := by
  have hsome : (envelopeToJson { ordersEnvelope with timestamp := 0x80000000 }).isSome = true := by
    rw [envelopeToJson_isSome]; decide
  obtain ⟨json, hjson⟩ := Option.isSome_iff_exists.mp hsome
  exact ⟨json, _, hjson, envelopeFromJson_toJson 0 hjson, by decide, by decide, by decide⟩

/-! ## What the serialization binds -/

section Digest

variable (sha256 : Bytes → Hash)

theorem envelopeFinalize_of_finalizeTreeHash_eq {env env' : Envelope}
    (h : finalizeTreeHash sha256 env = finalizeTreeHash sha256 env') :
    envelopeFinalize sha256 env = envelopeFinalize sha256 env' := by
  unfold envelopeFinalize
  simp only [h]

end Digest

end Scribe
