import CoppiceNames.Protocol.Values

/-!
# The operation codec

The exact manual wire codec of `codec.rs`: one tag byte, then the fields of a COMMIT, a REVEAL or a
REFRESH in a fixed order, with big-endian integers, a `u8`-prefixed name, a `u16`-prefixed Unified
Address and a proof whose length the deployment fixes.

The decoder is a `Reader`. Its specification is assembled field by field: every field reader
recognises exactly its own encoding, with **one exception** — the name. `Name::parse` strips a
`.zec` suffix, so the name field recognises both the bare label and the label with the suffix
(`NameField`).
-/

namespace CoppiceNames

section Codec

variable [Primitives]

/-! ### Operations and parameters -/

/-- The fields of `Operation::Reveal`. -/
structure Reveal where
  name : Name
  commit : CommitRef
  ua : CanonicalUa
  actionIndex : U32
  successorFutureNf : FieldElement
  proof : List UInt8
  deriving DecidableEq

/-- The fields of `Operation::Refresh`. -/
structure Refresh where
  name : Name
  predecessor : StateRef
  ua : CanonicalUa
  actionIndex : U32
  successorFutureNf : FieldElement
  proof : List UInt8
  deriving DecidableEq

/-- `Operation`: one canonical Names operation. -/
inductive Operation
  | commit (commitment : Commitment)
  | reveal (op : Reveal)
  | refresh (op : Refresh)
  deriving DecidableEq

/-- `CodecError`. -/
inductive CodecError
  | invalidTag
  | truncated
  | trailingBytes
  | invalidName
  | invalidUa
  | invalidField
  | invalidProofLength
  | tooLarge
  deriving DecidableEq, Repr

/-- `MAX_REVEAL_PROOF_BYTES`. -/
def maxRevealProofBytes : ℕ := 14890

/-- `MAX_REFRESH_PROOF_BYTES`. -/
def maxRefreshProofBytes : ℕ := 14886

/-- `CodecParameters`: the proof lengths a deployment fixes. -/
structure CodecParameters where
  revealProofBytes : ℕ
  refreshProofBytes : ℕ

/-- `CodecParameters::validate`. -/
def CodecParameters.validate (parameters : CodecParameters) : Except CodecError Unit :=
  if parameters.revealProofBytes > maxRevealProofBytes ∨
      parameters.refreshProofBytes > maxRefreshProofBytes then .error .tooLarge
  else .ok ()

/-! ### Encoding -/

/-- `u32::to_be_bytes`. -/
def encodeU32 (x : U32) : List UInt8 :=
  beBytes 4 x.val

omit [Primitives] in
theorem encodeU32_inj {x y : U32} (h : encodeU32 x = encodeU32 y) : x = y :=
  Fin.ext (beBytes_inj x.isLt y.isLt h)

/-- `encode_name`: a length byte, then the label. -/
def encodeName (name : Name) : List UInt8 :=
  UInt8.ofNat name.bytes.length :: name.bytes

/-- `encode_ua`: a big-endian `u16` length, then the address. -/
def encodeUa (ua : CanonicalUa) : Except CodecError (List UInt8) :=
  if ua.value.bytes.length < 65536 then
    .ok (beBytes 2 ua.value.bytes.length ++ ua.value.bytes)
  else .error .invalidUa

/-- The fixed part of a COMMIT reference. -/
def encodeCommitRef (r : CommitRef) : List UInt8 :=
  encodeU32 r.height ++ (encodeU32 r.txIndex ++ r.txid.toList)

/-- The fixed part of a state reference. -/
def encodeStateRef (r : StateRef) : List UInt8 :=
  encodeU32 r.height ++ (encodeU32 r.txIndex ++ (r.txid.toList ++ encodeU32 r.actionIndex))

/-- The bytes `encode` pushes for one operation, before the size check. -/
def encodeFields (operation : Operation) (parameters : CodecParameters) :
    Except CodecError (List UInt8) :=
  match operation with
  | .commit commitment => .ok (0 :: commitment.bytes.toList)
  | .reveal op =>
    if op.proof.length ≠ parameters.revealProofBytes then .error .invalidProofLength
    else
      match encodeUa op.ua with
      | .error e => .error e
      | .ok ua => .ok (1 :: (encodeName op.name ++ (encodeCommitRef op.commit ++ (ua ++
          (encodeU32 op.actionIndex ++ (op.successorFutureNf.bytes.toList ++ op.proof))))))
  | .refresh op =>
    if op.proof.length ≠ parameters.refreshProofBytes then .error .invalidProofLength
    else
      match encodeUa op.ua with
      | .error e => .error e
      | .ok ua => .ok (2 :: (encodeName op.name ++ (encodeStateRef op.predecessor ++ (ua ++
          (encodeU32 op.actionIndex ++ (op.successorFutureNf.bytes.toList ++ op.proof))))))

/-- `encode`. -/
def encode (operation : Operation) (parameters : CodecParameters) :
    Except CodecError (List UInt8) :=
  match parameters.validate with
  | .error e => .error e
  | .ok () =>
    match encodeFields operation parameters with
    | .error e => .error e
    | .ok out => if out.length > Primitives.maxApplicationPayloadLen then .error .tooLarge
      else .ok out

/-! ### Decoding -/

namespace Decoder

/-- `Decoder::bytes`. -/
def bytes (n : ℕ) : Reader CodecError (List UInt8) :=
  Reader.bytes n .truncated

/-- `Decoder::take`. -/
def take (n : ℕ) : Reader CodecError (Vector UInt8 n) := do
  let taken ← bytes n
  if h : taken.length = n then pure ⟨taken.toArray, by simpa using h⟩ else throw .truncated

/-- `Decoder::u8`. -/
def u8 : Reader CodecError UInt8 := do
  let taken ← take 1
  pure taken[0]

/-- `Decoder::u16`. -/
def u16 : Reader CodecError ℕ := do
  let taken ← take 2
  pure (beNat taken.toList)

/-- `u32::from_be_bytes`. -/
def u32FromBytes (taken : Vector UInt8 4) : U32 :=
  ⟨beNat taken.toList, by simpa using beNat_lt taken.toList⟩

/-- `Decoder::u32`. -/
def u32 : Reader CodecError U32 := do
  let taken ← take 4
  pure (u32FromBytes taken)

/-- Reject with a codec error unless the value parser accepts. -/
def checked {α ε : Type} (result : Except ε α) (e : CodecError) : Reader CodecError α :=
  match result with
  | .ok a => pure a
  | .error _ => throw e

/-- `core::str::from_utf8`, as `Decoder::name` and `Decoder::ua` use it. -/
def utf8 (raw : List UInt8) (e : CodecError) : Reader CodecError Str :=
  match fromUtf8 raw with
  | some value => pure value
  | none => throw e

/-- `Decoder::name`. -/
def name : Reader CodecError Name := do
  let length ← u8
  let raw ← bytes length.toNat
  let value ← utf8 raw .invalidName
  checked (Name.parse value) .invalidName

/-- `Decoder::ua`. -/
def ua (network : Network) : Reader CodecError CanonicalUa := do
  let length ← u16
  let raw ← bytes length
  let value ← utf8 raw .invalidUa
  checked (CanonicalUa.parse network value) .invalidUa

/-- `Decoder::proof`. -/
def proof (length : ℕ) : Reader CodecError (List UInt8) :=
  Reader.bytes length .invalidProofLength

def commitRef : Reader CodecError CommitRef := do
  let height ← u32
  let txIndex ← u32
  let txid ← take 32
  pure ⟨height, txIndex, txid⟩

def stateRef : Reader CodecError StateRef := do
  let height ← u32
  let txIndex ← u32
  let txid ← take 32
  let actionIndex ← u32
  pure ⟨height, txIndex, txid, actionIndex⟩

def fieldElement : Reader CodecError FieldElement := do
  let taken ← take 32
  checked (FieldElement.fromBytes taken) .invalidField

def commitOp : Reader CodecError Operation := do
  let taken ← take 32
  let commitment ← checked (Commitment.fromBytes taken) .invalidField
  pure (.commit commitment)

def revealOp (network : Network) (proofBytes : ℕ) : Reader CodecError Operation := do
  let name ← name
  let commit ← commitRef
  let ua ← ua network
  let actionIndex ← u32
  let successorFutureNf ← fieldElement
  let proof ← proof proofBytes
  pure (.reveal ⟨name, commit, ua, actionIndex, successorFutureNf, proof⟩)

def refreshOp (network : Network) (proofBytes : ℕ) : Reader CodecError Operation := do
  let name ← name
  let predecessor ← stateRef
  let ua ← ua network
  let actionIndex ← u32
  let successorFutureNf ← fieldElement
  let proof ← proof proofBytes
  pure (.refresh ⟨name, predecessor, ua, actionIndex, successorFutureNf, proof⟩)

/-- The match on the tag byte in `decode`. -/
def operation (network : Network) (parameters : CodecParameters) :
    Reader CodecError Operation := do
  let tag ← u8
  if tag = 0 then commitOp
  else if tag = 1 then revealOp network parameters.revealProofBytes
  else if tag = 2 then refreshOp network parameters.refreshProofBytes
  else throw .invalidTag

end Decoder

/-- `decode`. -/
def decode (bytes : List UInt8) (network : Network) (parameters : CodecParameters) :
    Except CodecError Operation :=
  match parameters.validate with
  | .error e => .error e
  | .ok () => (Decoder.operation network parameters).runAll .trailingBytes bytes

end Codec

namespace Sample

/-- A deployment with a three-byte REVEAL proof and a two-byte REFRESH proof. -/
def codecParameters : CodecParameters := ⟨3, 2⟩

/-- A REVEAL of `alice`. -/
def reveal : Reveal where
  name := alice
  commit := ⟨0, 0, Vector.replicate 32 10⟩
  ua := ua
  actionIndex := 0
  successorFutureNf := field 4
  proof := [1, 2, 3]

end Sample

end CoppiceNames
