import CoppiceNames.Library.Wire

/-!
# Canonical protocol values

The values of `protocol.rs`: names, field elements, Unified Addresses and chain references. Each
validated newtype of the source is a structure whose field states what its constructor checked, so
a value that the source could not build cannot be built here either.

What the source takes from third-party crates is a parameter (`Primitives`): BLAKE2b under a
personalization, its reduction into the Pallas base field, Unified Address recoding, Core's bound on
an application payload, and the embedded ruleset manifest as `serde_json` writes it. The canonicity
check of a field encoding is not one of them — it is a comparison with the modulus and is written
out.

A Rust `str` is its UTF-8 bytes with the proof that they are valid; `fromUtf8` is the only place
where the source turns unvalidated bytes into one.
-/

open Std

namespace CoppiceNames

/-! ### Machine integers and byte arrays -/

/-- A `u32`. -/
abbrev U32 := Fin 4294967296

namespace U32

instance instNeZero : NeZero 4294967296 := ⟨by decide⟩

/-- Maps are keyed by heights. -/
instance instTransOrd : TransOrd U32 := inferInstance

/-- `u32::MAX`. -/
def MAX : U32 := 4294967295

def checkedAdd (a b : U32) : Option U32 :=
  if h : a.val + b.val < 4294967296 then some ⟨a.val + b.val, h⟩ else none

def checkedMul (a b : U32) : Option U32 :=
  if h : a.val * b.val < 4294967296 then some ⟨a.val * b.val, h⟩ else none

def checkedSub (a b : U32) : Option U32 :=
  if b ≤ a then some (a - b) else none

/-- `u32::try_from` on a `usize`. -/
def ofUsize (n : ℕ) : Option U32 :=
  if h : n < 4294967296 then some ⟨n, h⟩ else none

theorem checkedAdd_eq_some_iff {a b c : U32} :
    checkedAdd a b = some c ↔ c.val = a.val + b.val := by
  rw [checkedAdd]
  have hc := c.isLt
  split
  · rw [Option.some.injEq, Fin.ext_iff]
    exact eq_comm
  · constructor
    · intro h
      cases h
    · omega

theorem checkedMul_eq_some_iff {a b c : U32} :
    checkedMul a b = some c ↔ c.val = a.val * b.val := by
  rw [checkedMul]
  have hc := c.isLt
  split
  · rw [Option.some.injEq, Fin.ext_iff]
    exact eq_comm
  · rename_i hlt
    constructor
    · intro h
      cases h
    · intro h
      rw [← h] at hlt
      exact absurd hc hlt

theorem checkedSub_eq_some_iff {a b c : U32} :
    checkedSub a b = some c ↔ b ≤ a ∧ c.val = a.val - b.val := by
  rw [checkedSub]
  split
  · rename_i hle
    rw [Option.some.injEq, Fin.ext_iff, Fin.sub_val_of_le hle]
    exact ⟨fun h ↦ ⟨hle, h.symm⟩, fun h ↦ h.2.symm⟩
  · grind

theorem checkedSub_eq_none_iff {a b : U32} : checkedSub a b = none ↔ a < b := by
  rw [checkedSub]
  split <;> grind

theorem isLE_compare {a b : U32} : (compare a b).isLE = true ↔ a ≤ b :=
  Nat.isLE_compare

theorem ofUsize_eq_some_iff {n : ℕ} {c : U32} : ofUsize n = some c ↔ c.val = n := by
  rw [ofUsize]
  have hc := c.isLt
  split <;> grind

end U32

/-- A `[u8; 32]`, ordered lexicographically. -/
abbrev Bytes32 := Vector UInt8 32

instance Bytes32.instTransOrd : TransOrd Bytes32 := inferInstance

/-- A Rust `str`: a byte string that is valid UTF-8. -/
structure Str where
  /-- The bytes of the string. -/
  bytes : List UInt8
  /-- They are valid UTF-8. -/
  utf8 : (ByteArray.mk bytes.toArray).IsValidUTF8
  deriving DecidableEq

/-- The bytes of a literal of the source. -/
def lit (s : String) : List UInt8 := s.toUTF8.data.toList

theorem lit_zec : lit ".zec" = [46, 122, 101, 99] := by
  decide

/-- `core::str::from_utf8`. -/
def fromUtf8 (bytes : List UInt8) : Option Str :=
  if h : (ByteArray.mk bytes.toArray).IsValidUTF8 then some ⟨bytes, h⟩ else none

theorem fromUtf8_eq_some_iff {bytes : List UInt8} {s : Str} :
    fromUtf8 bytes = some s ↔ s.bytes = bytes := by
  rw [fromUtf8]
  constructor
  · intro h
    split at h
    · cases h
      rfl
    · cases h
  · rintro rfl
    rw [dif_pos s.utf8]

/-- A string of ASCII bytes is valid UTF-8: each byte is the one-byte encoding of the character
with that code. -/
theorem isValidUTF8_of_ascii {bytes : List UInt8} (h : ∀ b ∈ bytes, b < 128) :
    (ByteArray.mk bytes.toArray).IsValidUTF8 := by
  refine ⟨bytes.map fun b ↦ Char.ofNat b.toNat, ?_⟩
  have hchar : ∀ b ∈ bytes, String.utf8EncodeChar (Char.ofNat b.toNat) = [b] := by
    intro b hb
    have hlt : b.toNat < 128 := h b hb
    have hval : (Char.ofNat b.toNat).val.toNat = b.toNat := by
      rw [Char.ofNat, dif_pos (Or.inl (by omega))]
      rfl
    have hsize : (Char.ofNat b.toNat).utf8Size = 1 := by
      rw [Char.utf8Size_eq_one_iff, UInt32.le_iff_toNat_le, hval]
      exact Nat.le_of_lt_succ hlt
    have hbyte : (Char.ofNat b.toNat).val.toUInt8 = b := by
      rw [← UInt8.toNat_inj, UInt32.toNat_toUInt8, hval]
      omega
    rw [String.utf8EncodeChar_eq_singleton hsize, hbyte]
  have hflat : (bytes.map fun b ↦ Char.ofNat b.toNat).flatMap String.utf8EncodeChar = bytes := by
    clear h
    induction bytes with
    | nil => rfl
    | cons b bs ih =>
      rw [List.map_cons, List.flatMap_cons, hchar b List.mem_cons_self,
        ih fun c hc ↦ hchar c (List.mem_cons_of_mem b hc)]
      rfl
  rw [List.utf8Encode, hflat]
  exact ByteArray.ext (by simp [List.data_toByteArray])

/-! ### The Pallas base field -/

/-- The modulus of the Pallas base field. -/
def pallasModulus : ℕ :=
  0x40000000000000000000000000000000224698fc094cf91b992d30ed00000001

instance : NeZero pallasModulus := ⟨by decide⟩

/-- `pallas::Base`, by its canonical residues. -/
abbrev PallasBase := Fin pallasModulus

namespace PallasBase

/-- `pallas::Base::from_repr`: the little-endian value, when it is below the modulus. -/
def fromRepr (bytes : Bytes32) : Option PallasBase :=
  if h : leNat bytes.toList < pallasModulus then some ⟨leNat bytes.toList, h⟩ else none

/-- `pallas::Base::to_repr`. -/
def toRepr (x : PallasBase) : Bytes32 :=
  ⟨(leBytes 32 x.val).toArray, by simp⟩

theorem fromRepr_toRepr (x : PallasBase) : fromRepr x.toRepr = some x := by
  have hx : x.val < 256 ^ 32 := Nat.lt_trans x.isLt (by decide)
  have hval : leNat x.toRepr.toList = x.val := by
    rw [toRepr, Vector.toList_mk, leNat_leBytes hx]
  rw [fromRepr, dif_pos (hval ▸ x.isLt)]
  exact congrArg some (Fin.ext hval)

theorem toRepr_inj {x y : PallasBase} (h : x.toRepr = y.toRepr) : x = y := by
  rw [← Option.some_inj, ← fromRepr_toRepr, h, fromRepr_toRepr]

theorem fromRepr_inj {a b : Bytes32} {x : PallasBase} (ha : fromRepr a = some x)
    (hb : fromRepr b = some x) : a = b := by
  have hval : ∀ {bytes : Bytes32}, fromRepr bytes = some x → leNat bytes.toList = x.val := by
    intro bytes h
    rw [fromRepr] at h
    split at h
    · rw [← Option.some.inj h]
    · exact absurd h (by simp)
  have hlength : a.toList.length = b.toList.length := by
    rw [Vector.length_toList, Vector.length_toList]
  rw [← Vector.toList_inj, ← leBytes_leNat a.toList, ← leBytes_leNat b.toList, hval ha, hval hb,
    hlength]

/-- `From<u64>`. -/
def ofU64 (value : ℕ) : PallasBase := Fin.ofNat pallasModulus value

/-- Distinct integers of 64 bits are distinct field elements. -/
theorem ofU64_inj {a b : ℕ} (ha : a < 2 ^ 64) (hb : b < 2 ^ 64)
    (h : ofU64 a = ofU64 b) : a = b := by
  have hval : a % pallasModulus = b % pallasModulus := congrArg Fin.val h
  have hlt : 2 ^ 64 < pallasModulus := by decide
  rwa [Nat.mod_eq_of_lt (ha.trans hlt), Nat.mod_eq_of_lt (hb.trans hlt)] at hval

end PallasBase

/-! ### Errors, networks, and the third-party primitives -/

/-- `ValueError`. -/
inductive ValueError
  | invalidName
  | invalidField
  | zeroField
  | invalidUa
  | nonCanonicalUa
  | wrongNetwork
  | uaTooLong
  | hashToFieldExhausted
  deriving DecidableEq, Repr

/-- `Network`. -/
inductive Network
  | main
  | test
  | regtest
  deriving DecidableEq, Repr

/-- The third-party functions the protocol values rest on. -/
class Primitives where
  /-- `wide_field`: a personalized 64-byte BLAKE2b digest reduced into the Pallas base field. -/
  wideField : (personalization input : List UInt8) → PallasBase
  /-- A personalized 32-byte BLAKE2b digest. -/
  blake2b256 : (personalization input : List UInt8) → Bytes32
  /-- `unified::Address::decode`, then `encode` under the network that came back. -/
  recodeUa : Str → Option Str
  /-- Core's `MAX_APPLICATION_PAYLOAD_LEN`. -/
  maxApplicationPayloadLen : ℕ
  /-- `canonical_manifest`: the embedded ruleset manifest as canonical JSON. -/
  canonicalManifest : List UInt8

/-- `canonical_field`. -/
def canonicalField (bytes : Bytes32) : Except ValueError PallasBase :=
  match PallasBase.fromRepr bytes with
  | some field => .ok field
  | none => .error .invalidField

theorem canonicalField_toRepr (x : PallasBase) : canonicalField x.toRepr = .ok x := by
  rw [canonicalField, PallasBase.fromRepr_toRepr]

theorem isSome_fromRepr {bytes : Bytes32} (h : (canonicalField bytes).toBool = true) :
    (PallasBase.fromRepr bytes).isSome = true := by
  rw [canonicalField] at h
  split at h
  · rename_i field heq
    rw [heq]
    rfl
  · exact absurd h (by simp [Except.toBool])

/-- The field element of a canonical encoding. -/
def canonicalValue (bytes : Bytes32) (h : (canonicalField bytes).toBool = true) : PallasBase :=
  (PallasBase.fromRepr bytes).get (isSome_fromRepr h)

theorem fromRepr_eq_canonicalValue {bytes : Bytes32} (h : (canonicalField bytes).toBool = true) :
    PallasBase.fromRepr bytes = some (canonicalValue bytes h) :=
  (Option.some_get _).symm

theorem canonicalValue_inj {a b : Bytes32} {ha : (canonicalField a).toBool = true}
    {hb : (canonicalField b).toBool = true}
    (h : canonicalValue a ha = canonicalValue b hb) : a = b :=
  PallasBase.fromRepr_inj (fromRepr_eq_canonicalValue ha) (by rw [h, fromRepr_eq_canonicalValue hb])

/-! ### Field newtypes -/

/-- The check of `NameId::from_bytes` and `Commitment::from_bytes`: canonical and nonzero. -/
def nonzeroField (bytes : Bytes32) : Except ValueError Unit :=
  match canonicalField bytes with
  | .error e => .error e
  | .ok field => if field = 0 then .error .zeroField else .ok ()

theorem nonzeroField_toRepr {x : PallasBase} (hx : x ≠ 0) : nonzeroField x.toRepr = .ok () := by
  rw [nonzeroField, canonicalField_toRepr]
  exact if_neg hx

theorem canonical_of_nonzeroField {bytes : Bytes32} (h : nonzeroField bytes = .ok ()) :
    (canonicalField bytes).toBool = true := by
  rw [nonzeroField] at h
  split at h
  · exact absurd h (by simp)
  · rename_i heq
    rw [heq]
    rfl

/-- `NameId`: a nonzero canonical Pallas name identifier. -/
structure NameId where
  /-- The 32-byte encoding. -/
  bytes : Bytes32
  /-- The encoding passed the constructor's check. -/
  canonical : nonzeroField bytes = .ok ()
  deriving DecidableEq

/-- `Commitment`: a nonzero canonical Pallas COMMIT value. -/
structure Commitment where
  /-- The 32-byte encoding. -/
  bytes : Bytes32
  /-- The encoding passed the constructor's check. -/
  canonical : nonzeroField bytes = .ok ()
  deriving DecidableEq

/-- `FieldElement`: a canonical Pallas encoding, possibly zero. -/
@[ext]
structure FieldElement where
  /-- The 32-byte encoding. -/
  bytes : Bytes32
  /-- The encoding passed the constructor's check. -/
  canonical : (canonicalField bytes).toBool = true
  deriving DecidableEq

namespace NameId

/-- `NameId::from_bytes`. -/
def fromBytes (bytes : Bytes32) : Except ValueError NameId :=
  match h : nonzeroField bytes with
  | .error e => .error e
  | .ok () => .ok ⟨bytes, h⟩

@[simp]
theorem fromBytes_bytes (id : NameId) : fromBytes id.bytes = .ok id := by
  rw [fromBytes]
  split
  · rename_i e h
    rw [id.canonical] at h
    cases h
  · rfl

theorem fromBytes_eq_ok {bytes : Bytes32} {id : NameId} (h : fromBytes bytes = .ok id) :
    id.bytes = bytes := by
  rw [fromBytes] at h
  split at h
  · cases h
  · cases h
    rfl

/-- Name identifiers are ordered as their bytes. -/
instance : Ord NameId := ⟨compareOn NameId.bytes⟩

instance : TransOrd NameId :=
  inferInstanceAs (TransCmp (compareOn NameId.bytes))

instance : LawfulEqOrd NameId where
  eq_of_compare {a b} h := by
    have hbytes : a.bytes = b.bytes := LawfulEqOrd.eq_of_compare h
    rcases a with ⟨bytes, ha⟩
    cases hbytes
    rfl

end NameId

/-- `Commitment::from_bytes`. -/
def Commitment.fromBytes (bytes : Bytes32) : Except ValueError Commitment :=
  match h : nonzeroField bytes with
  | .error e => .error e
  | .ok () => .ok ⟨bytes, h⟩

@[simp]
theorem Commitment.fromBytes_bytes (c : Commitment) : fromBytes c.bytes = .ok c := by
  rw [fromBytes]
  split
  · rename_i e h
    rw [c.canonical] at h
    cases h
  · rfl

theorem Commitment.fromBytes_eq_ok {bytes : Bytes32} {c : Commitment}
    (h : fromBytes bytes = .ok c) : c.bytes = bytes := by
  rw [fromBytes] at h
  split at h
  · cases h
  · cases h
    rfl

/-- `FieldElement::from_bytes`. -/
def FieldElement.fromBytes (bytes : Bytes32) : Except ValueError FieldElement :=
  match h : canonicalField bytes with
  | .error e => .error e
  | .ok _ => .ok ⟨bytes, by rw [h]; rfl⟩

@[simp]
theorem FieldElement.fromBytes_bytes (x : FieldElement) : fromBytes x.bytes = .ok x := by
  rw [fromBytes]
  split
  · rename_i e h
    have hx := x.canonical
    rw [h] at hx
    cases hx
  · rfl

theorem FieldElement.fromBytes_eq_ok {bytes : Bytes32} {x : FieldElement}
    (h : fromBytes bytes = .ok x) : x.bytes = bytes := by
  rw [fromBytes] at h
  split at h
  · cases h
  · cases h
    rfl

/-- `NameId::field`. -/
def NameId.field (id : NameId) : PallasBase :=
  canonicalValue id.bytes (canonical_of_nonzeroField id.canonical)

/-- `Commitment::field`. -/
def Commitment.field (c : Commitment) : PallasBase :=
  canonicalValue c.bytes (canonical_of_nonzeroField c.canonical)

/-- `FieldElement::field`. -/
def FieldElement.field (x : FieldElement) : PallasBase :=
  canonicalValue x.bytes x.canonical

theorem NameId.field_inj {a b : NameId} (h : a.field = b.field) : a = b := by
  obtain ⟨bytes, hbytes⟩ := a
  obtain rfl : bytes = b.bytes := canonicalValue_inj h
  rfl

theorem Commitment.field_inj {a b : Commitment} (h : a.field = b.field) : a = b := by
  obtain ⟨bytes, hbytes⟩ := a
  obtain rfl : bytes = b.bytes := canonicalValue_inj h
  rfl

theorem FieldElement.field_inj {a b : FieldElement} (h : a.field = b.field) : a = b :=
  FieldElement.ext (canonicalValue_inj h)

/-! ### Names -/

/-- `BOND_ZATOSHIS`. -/
def bondZatoshis : ℕ := 100000000

/-- `MAX_NAME_BYTES`. -/
def maxNameBytes : ℕ := 63

/-- The bytes a name may hold: `a`–`z`, `0`–`9` and `-`. -/
def isNameByte (b : UInt8) : Bool :=
  (97 ≤ b && b ≤ 122) || (48 ≤ b && b ≤ 57) || b == 45

/-- The disjunction on which `Name::parse` rejects a bare name. -/
def MalformedName (bare : List UInt8) : Prop :=
  bare = [] ∨ bare.length > maxNameBytes ∨ ¬ (bare.all (· < 128) = true) ∨
    bare.head? = some 45 ∨ bare.getLast? = some 45 ∨ ¬ (bare.all isNameByte = true)

instance (bare : List UInt8) : Decidable (MalformedName bare) :=
  inferInstanceAs (Decidable (_ ∨ _))

/-- `str::strip_suffix`, on bytes. -/
def stripSuffix (suffix value : List UInt8) : Option (List UInt8) :=
  if suffix <:+ value then some (value.take (value.length - suffix.length)) else none

/-- `Name`: a validated canonical bare `.zec` label. -/
structure Name where
  /-- The bytes of the bare label. -/
  bytes : List UInt8
  /-- The label passed the grammar of `Name::parse`. -/
  wellFormed : ¬ MalformedName bytes
  deriving DecidableEq

namespace Name

/-- `Name::parse`: accepts a bare name or one lowercase `.zec` suffix. -/
def parse (value : Str) : Except ValueError Name :=
  let bare := (stripSuffix (lit ".zec") value.bytes).getD value.bytes
  if h : MalformedName bare then .error .invalidName else .ok ⟨bare, h⟩

variable (name : Name)

theorem length_le : name.bytes.length ≤ maxNameBytes :=
  Nat.le_of_not_lt fun h ↦ name.wellFormed (Or.inr (Or.inl h))

theorem ascii {b : UInt8} (hb : b ∈ name.bytes) : b < 128 := by
  have hall : name.bytes.all (· < 128) = true := by
    by_contra h
    exact name.wellFormed (Or.inr (Or.inr (Or.inl h)))
  simpa using List.all_eq_true.1 hall b hb

theorem isNameByte_of_mem {b : UInt8} (hb : b ∈ name.bytes) : isNameByte b = true := by
  have hall : name.bytes.all isNameByte = true := by
    by_contra h
    exact name.wellFormed (Or.inr (Or.inr (Or.inr (Or.inr (Or.inr h)))))
  exact List.all_eq_true.1 hall b hb

/-- `Name::as_str`. -/
def asStr : Str :=
  ⟨name.bytes, isValidUTF8_of_ascii fun _ ↦ name.ascii⟩

/-- A canonical name does not end in `.zec`: the grammar has no dot. -/
theorem not_zec_suffix : ¬ lit ".zec" <:+ name.bytes := by
  rintro ⟨t, ht⟩
  have hdot : (46 : UInt8) ∈ name.bytes := by
    rw [← ht]
    exact List.mem_append_right t (by decide)
  exact absurd (name.isNameByte_of_mem hdot) (by decide)

/-- Parsing a canonical name gives it back. -/
@[simp]
theorem parse_asStr : parse name.asStr = .ok name := by
  have hstrip : stripSuffix (lit ".zec") name.asStr.bytes = none :=
    if_neg name.not_zec_suffix
  rw [parse, hstrip]
  exact dif_neg name.wellFormed

end Name

/-- The hash input of `Name::id` at one counter: length, label, counter. -/
def Name.idInput (name : Name) (counter : ℕ) : List UInt8 :=
  UInt8.ofNat name.bytes.length :: (name.bytes ++ [UInt8.ofNat counter])

/-- A nonzero field element as a name identifier. -/
def NameId.ofField (x : PallasBase) (hx : x ≠ 0) : NameId :=
  ⟨x.toRepr, nonzeroField_toRepr hx⟩

section Hashes

variable [Primitives]

/-- `Name::id`: the first nonzero candidate over the 256 counters. -/
def Name.id (name : Name) : Except ValueError NameId :=
  let attempt (counter : ℕ) : Option NameId :=
    let candidate := Primitives.wideField (lit "CoppiceNmName") (name.idInput counter)
    if h : candidate ≠ 0 then some (NameId.ofField candidate h) else none
  match (List.range 256).findSome? attempt with
  | some nameId => .ok nameId
  | none => .error .hashToFieldExhausted

/-! ### Unified Addresses -/

/-- `MAX_UA_BYTES`. -/
def maxUaBytes : ℕ := 1024

/-- The human-readable prefix of a network's Unified Addresses. -/
def Network.hrp : Network → List UInt8
  | .main => lit "u"
  | .test => lit "utest"
  | .regtest => lit "uregtest"

/-- `Network::matches_hrp`: the prefix, then the separator `1`. -/
def Network.matchesHrp (network : Network) (address : List UInt8) : Bool :=
  network.hrp.isPrefixOf address && (address.drop network.hrp.length).head? == some 49

/-- The checks of `CanonicalUa::parse`, in its order. -/
def checkUa (network : Network) (value : Str) : Except ValueError Unit :=
  if value.bytes = [] ∨ value.bytes.length > maxUaBytes then .error .uaTooLong
  else if network.matchesHrp value.bytes = false then .error .wrongNetwork
  else match Primitives.recodeUa value with
    | none => .error .invalidUa
    | some encoded => if encoded ≠ value then .error .nonCanonicalUa else .ok ()

/-- `CanonicalUa`: a canonical ZIP-316 Unified Address of some network. -/
structure CanonicalUa where
  /-- The address text. -/
  value : Str
  /-- It passed the checks for some network. -/
  canonical : ∃ network, checkUa network value = .ok ()

instance : DecidableEq CanonicalUa := fun a b ↦
  decidable_of_iff (a.value = b.value) ⟨fun h ↦ by cases a; cases b; cases h; rfl, congrArg _⟩

namespace CanonicalUa

/-- `CanonicalUa::parse`. -/
def parse (network : Network) (value : Str) : Except ValueError CanonicalUa :=
  match h : checkUa network value with
  | .error e => .error e
  | .ok () => .ok ⟨value, network, h⟩

/-- The address is canonical for this network. -/
def CanonicalFor (ua : CanonicalUa) (network : Network) : Prop :=
  checkUa network ua.value = .ok ()

instance (ua : CanonicalUa) (network : Network) : Decidable (ua.CanonicalFor network) :=
  inferInstanceAs (Decidable (checkUa network ua.value = .ok ()))

theorem parse_eq_ok_iff {network : Network} {value : Str} {ua : CanonicalUa} :
    parse network value = .ok ua ↔ ua.value = value ∧ ua.CanonicalFor network := by
  rw [parse, CanonicalFor]
  constructor
  · intro h
    split at h
    · cases h
    · cases h
      exact ⟨rfl, ‹_›⟩
  · rintro ⟨rfl, hua⟩
    split
    · rename_i e h
      rw [hua] at h
      cases h
    · rfl

theorem length_le (ua : CanonicalUa) : ua.value.bytes.length ≤ maxUaBytes := by
  obtain ⟨network, h⟩ := ua.canonical
  rw [checkUa] at h
  split at h
  · cases h
  · rename_i hlen
    exact Nat.le_of_not_lt fun hlt ↦ hlen (Or.inr hlt)

end CanonicalUa

end Hashes

/-! ### Chain references -/

/-- `CommitRef`: the exact canonical transaction position of a COMMIT. -/
structure CommitRef where
  /-- Block height. -/
  height : U32
  /-- Transaction index in the block. -/
  txIndex : U32
  /-- Transaction identifier. -/
  txid : Bytes32
  deriving DecidableEq

/-- `StateRef`: the exact canonical action position of a state head. -/
structure StateRef where
  /-- Block height. -/
  height : U32
  /-- Transaction index in the block. -/
  txIndex : U32
  /-- Transaction identifier. -/
  txid : Bytes32
  /-- Action index in the transaction. -/
  actionIndex : U32
  deriving DecidableEq

namespace CommitRef

/-- References are ordered by height, then index, then transaction identifier. -/
instance : Ord CommitRef :=
  ⟨compareLex (compareOn height) (compareLex (compareOn txIndex) (compareOn txid))⟩

instance : TransOrd CommitRef :=
  inferInstanceAs
    (TransCmp (compareLex (compareOn height) (compareLex (compareOn txIndex) (compareOn txid))))

instance : LawfulEqOrd CommitRef where
  eq_of_compare {a b} h := by
    have h' : compareLex (compareOn height) (compareLex (compareOn txIndex) (compareOn txid)) a b
        = .eq := h
    simp only [compareLex_eq_eq] at h'
    obtain ⟨h₁, h₂, h₃⟩ := h'
    rcases a with ⟨_, _, _⟩
    rcases b with ⟨_, _, _⟩
    cases LawfulEqOrd.eq_of_compare h₁
    cases LawfulEqOrd.eq_of_compare h₂
    cases LawfulEqOrd.eq_of_compare h₃
    rfl

end CommitRef

/-! ### A concrete instance

The third-party functions at the inputs the concrete examples below use: the label `alice`, its
schedule offset under the deployment `[8; 32]`, and one regtest address. -/

namespace Sample

/-- The label `alice`. -/
def alice : Name := ⟨lit "alice", by decide⟩

/-- A canonical regtest Unified Address. -/
def uaText : String :=
  "uregtest1rxnn8qurdex552draeuvvvucggeknmmsxazg52mkatf0hrclhppe5jeqj6w7svqtxvxq320tw6ejsk4nm" ++
    "8zk8f35274vlwqerfx74904pydaxe27wnpq8llqxclaa0n04zg764ppzfruu4gsagmqw0mlvx"

/-- The digest behind the schedule offset of `alice` under the deployment `[8; 32]`. -/
def offsetDigest : Bytes32 :=
  #v[255, 72, 244, 129, 206, 20, 255, 140, 96, 52, 67, 50, 166, 61, 103, 23,
    145, 78, 114, 34, 142, 144, 221, 180, 252, 242, 25, 93, 49, 156, 197, 32]

/-- The primitives, tabulated where the examples evaluate them. -/
scoped instance primitives : Primitives where
  wideField personalization input :=
    if personalization = lit "CoppiceNmName" ∧ input = alice.idInput 0 then
      25498990301477626984680472778715186587089675588997695024897273504138236115870
    else 1
  blake2b256 personalization _ :=
    if personalization = lit "CoppiceNmOff" then offsetDigest else Vector.replicate 32 0
  recodeUa value := if value.bytes = lit uaText then some value else none
  maxApplicationPayloadLen := 16384
  canonicalManifest := []

/-- The encoding of a small field element. -/
def field (x : PallasBase) : FieldElement :=
  ⟨x.toRepr, by rw [canonicalField_toRepr]; rfl⟩

/-- The COMMIT value one. -/
def commitment : Commitment :=
  ⟨PallasBase.toRepr 1, nonzeroField_toRepr (by decide)⟩

theorem uaText_utf8 : (ByteArray.mk (lit uaText).toArray).IsValidUTF8 := by
  decide +kernel

theorem checkUa_uaText : checkUa .regtest ⟨lit uaText, uaText_utf8⟩ = .ok () := by
  decide +kernel

/-- The address, canonical for regtest. -/
def ua : CanonicalUa :=
  ⟨⟨lit uaText, uaText_utf8⟩, .regtest, checkUa_uaText⟩

theorem ua_canonicalFor : ua.CanonicalFor .regtest :=
  checkUa_uaText

end Sample

end CoppiceNames
