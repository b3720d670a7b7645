import Scribe.Json.RoundTrip

/-!
# Typed objects and their addresses

`scribe_object_compute_hash` addresses an object by the SHA-256 of a Git-style preimage:
the type string, a space, the decimal size, a NUL byte, then the content.  No type string
holds a space and no decimal holds a NUL, so the first space and the first NUL after it
split any preimage back into its fields, whatever the content holds.
`objectPreimage_inj` recovers both fields that way, and digests of distinct objects can
only agree through a SHA-256 collision between their preimages.
-/

namespace Scribe

/-- `scribe_object_type_t`. -/
inductive ObjectType where
  | blob
  | tree
  | commit
  deriving DecidableEq, Repr

/-- `scribe_object_type_string`. -/
def objectTypeString : ObjectType → Bytes
  | .blob => ascii "blob"
  | .tree => ascii "tree"
  | .commit => ascii "commit"

/-- The buffer `scribe_object_compute_hash` hashes: `"<type> <size>\0"`, then the content,
whose length is `size`. -/
def objectPreimage (type : ObjectType) (content : Bytes) : Bytes :=
  objectTypeString type ++ 0x20 :: (decimal content.length ++ 0x00 :: content)

/-- `scribe_object_compute_hash`, when the buffer can be allocated. -/
def objectComputeHash (sha256 : Bytes → Hash) (content : Bytes) (type : ObjectType) : Hash :=
  hashBytes sha256 (objectPreimage type content)

/-! ## Splitting a preimage -/

/-- Before the first `d` and from it on, the two fields a list is split into. -/
theorem takeWhile_dropWhile_append_cons {d : UInt8} {s : Bytes} (r : Bytes) (hs : d ∉ s) :
    (s ++ d :: r).takeWhile (· != d) = s ∧ (s ++ d :: r).dropWhile (· != d) = d :: r := by
  induction s with
  | nil => simp
  | cons a s ih =>
      rw [List.mem_cons, not_or] at hs
      have ha : (a != d) = true := bne_iff_ne.mpr (Ne.symm hs.1)
      simp [List.takeWhile_cons, List.dropWhile_cons, ha, ih hs.2]

theorem eq_of_append_cons_eq {d : UInt8} {s s' r r' : Bytes} (hs : d ∉ s) (hs' : d ∉ s')
    (h : s ++ d :: r = s' ++ d :: r') : s = s' ∧ r = r' := by
  obtain ⟨htake, hdrop⟩ := takeWhile_dropWhile_append_cons r hs
  obtain ⟨htake', hdrop'⟩ := takeWhile_dropWhile_append_cons r' hs'
  rw [h] at htake hdrop
  exact ⟨htake.symm.trans htake', (List.cons.inj (hdrop.symm.trans hdrop')).2⟩

theorem space_not_mem_objectTypeString (type : ObjectType) : 0x20 ∉ objectTypeString type := by
  cases type <;> decide

theorem nul_not_mem_decimal (n : Nat) : 0x00 ∉ decimal n :=
  fun h => absurd (isDigit_of_mem_decimal n _ h) (by decide)

theorem objectTypeString_injective : Function.Injective objectTypeString := by
  intro type type' h
  cases type <;> cases type' <;> first | rfl | exact absurd h (by decide)

/-- The type and the content are read back from a preimage: the type before the first
space, the content after the first NUL that follows it. -/
theorem objectPreimage_inj {type type' : ObjectType} {content content' : Bytes}
    (h : objectPreimage type content = objectPreimage type' content') :
    type = type' ∧ content = content' := by
  obtain ⟨htype, hrest⟩ := eq_of_append_cons_eq (space_not_mem_objectTypeString type)
    (space_not_mem_objectTypeString type') h
  exact ⟨objectTypeString_injective htype,
    (eq_of_append_cons_eq (nul_not_mem_decimal _) (nul_not_mem_decimal _) hrest).2⟩

/-- Object preimages are injective, so two objects share an address only when they are the
same object or their preimages collide under SHA-256. -/
theorem objectPreimage_injective (sha256 : Bytes → Hash) :
    Function.Injective (fun object : ObjectType × Bytes => objectPreimage object.1 object.2) ∧
      ∀ (type type' : ObjectType) (content content' : Bytes),
        objectComputeHash sha256 content type = objectComputeHash sha256 content' type' →
        (type = type' ∧ content = content') ∨
          Collision sha256 (objectPreimage type content) (objectPreimage type' content') := by
  refine ⟨fun object object' h => Prod.ext_iff.mpr (objectPreimage_inj h), ?_⟩
  intro type type' content content' heq
  by_cases hpre : objectPreimage type content = objectPreimage type' content'
  · exact .inl (objectPreimage_inj hpre)
  · exact .inr ⟨hpre, heq⟩

end Scribe
