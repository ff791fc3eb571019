import CoppiceNames.Protocol.Codec

/-!
# What the operation codec accepts

The specification of `decode` and `encode`, and the two theorems that compare them.

`decode_eq_ok_iff` states exactly which byte strings decode to an operation and `encode_eq_ok_iff`
what an operation encodes to. The two layouts are the same but for the name: the decoder accepts a
label with or without the `.zec` suffix that `Name::parse` strips (`NameField`), the encoder writes
the bare label only. So

* encoding followed by decoding is the identity (`decode_encode`), and
* an accepted byte string is the encoding of its operation **exactly when** the name field it holds
  does not end in `.zec` (`encode_of_decode_iff`). Every REVEAL and REFRESH has a second accepted
  encoding, with the suffix.
-/

namespace CoppiceNames

open Reader

/-! ### The field readers -/

namespace Decoder

theorem recognises_throw {α : Type} (e : CodecError) :
    Recognises (throw e : Reader CodecError α) fun _ _ ↦ False := by
  intro input a rest
  constructor
  · intro h
    cases h
  · rintro ⟨_, h, -⟩
    exact h.elim

theorem recognises_checked {α ε : Type} (result : Except ε α) (err : CodecError) :
    Recognises (checked result err) fun a e ↦ result = .ok a ∧ e = [] := by
  rcases result with e | a
  · exact (recognises_throw err).congr fun _ _ ↦ by simp
  · exact (Recognises.pure a).congr fun _ _ ↦ by rw [Except.ok.injEq]

theorem recognises_utf8 (raw : List UInt8) (err : CodecError) :
    Recognises (utf8 raw err) fun s e ↦ s.bytes = raw ∧ e = [] := by
  rw [utf8]
  rcases h : fromUtf8 raw with - | value
  · refine (recognises_throw err).congr fun s _ ↦ ⟨False.elim, ?_⟩
    rintro ⟨hs, -⟩
    rw [fromUtf8_eq_some_iff.2 hs] at h
    cases h
  · refine (Recognises.pure value).congr fun s _ ↦ and_congr_left fun _ ↦ ?_
    rw [← fromUtf8_eq_some_iff, h, Option.some.injEq]

theorem recognises_take (n : ℕ) : Recognises (take n) fun v e ↦ e = v.toList := by
  intro input v rest
  rw [take, bind_eq_ok_iff]
  constructor
  · rintro ⟨taken, mid, htaken, hv⟩
    obtain ⟨hlen, rfl⟩ := bytes_eq_ok_iff.1 htaken
    rw [dif_pos hlen] at hv
    obtain ⟨rfl, rfl⟩ := pure_eq_ok_iff.1 hv
    exact ⟨taken, by simp, rfl⟩
  · rintro ⟨e, rfl, rfl⟩
    refine ⟨v.toList, rest, bytes_eq_ok_iff.2 ⟨by simp, rfl⟩, ?_⟩
    rw [dif_pos (by simp)]
    exact pure_eq_ok_iff.2 ⟨by rcases v with ⟨⟨l⟩, hl⟩; rfl, rfl⟩

theorem recognises_u8 : Recognises u8 fun b e ↦ e = [b] := by
  refine ((recognises_take 1).bind fun v ↦ Recognises.pure v[0]).congr fun b e ↦ ?_
  constructor
  · rintro ⟨v, e₁, e₂, rfl, ⟨rfl, rfl⟩, rfl⟩
    rcases v with ⟨⟨l⟩, hl⟩
    obtain ⟨x, rfl⟩ := List.length_eq_one_iff.1 hl
    rfl
  · rintro rfl
    exact ⟨#v[b], [b], [], rfl, ⟨rfl, rfl⟩, rfl⟩

/-- The four bytes of a `u32` and their reading determine each other. -/
theorem recognises_u32 : Recognises u32 fun x e ↦ e = encodeU32 x := by
  refine ((recognises_take 4).bind fun v ↦ Recognises.pure (u32FromBytes v)).congr fun x e ↦ ?_
  constructor
  · rintro ⟨v, e₁, e₂, rfl, ⟨rfl, rfl⟩, rfl⟩
    have h := beBytes_beNat v.toList
    rw [Vector.length_toList] at h
    rw [List.append_nil, encodeU32, u32FromBytes, h]
  · rintro rfl
    refine ⟨⟨(encodeU32 x).toArray, by simp [encodeU32]⟩, encodeU32 x, [], by simp, ⟨?_, rfl⟩,
      by simp⟩
    apply Fin.ext
    show beNat (encodeU32 x) = x.val
    exact beNat_beBytes x.isLt

theorem recognises_u16 : Recognises u16 fun n e ↦ n < 65536 ∧ e = beBytes 2 n := by
  refine ((recognises_take 2).bind fun v ↦ Recognises.pure (beNat v.toList)).congr fun n e ↦ ?_
  constructor
  · rintro ⟨v, e₁, e₂, rfl, ⟨rfl, rfl⟩, rfl⟩
    have hlt := beNat_lt v.toList
    have h := beBytes_beNat v.toList
    rw [Vector.length_toList] at h hlt
    exact ⟨hlt, by rw [List.append_nil, h]⟩
  · rintro ⟨hlt, rfl⟩
    exact ⟨⟨(beBytes 2 n).toArray, by simp⟩, beBytes 2 n, [], by simp,
      ⟨by simpa using beNat_beBytes hlt, rfl⟩, by simp⟩

theorem recognises_fieldElement : Recognises fieldElement fun x e ↦ e = x.bytes.toList := by
  refine ((recognises_take 32).bind fun v ↦
    recognises_checked (FieldElement.fromBytes v) _).congr fun x e ↦ ?_
  constructor
  · rintro ⟨v, e₁, e₂, rfl, ⟨hx, rfl⟩, rfl⟩
    rw [FieldElement.fromBytes_eq_ok hx, List.append_nil]
  · rintro rfl
    exact ⟨x.bytes, _, [], rfl, ⟨x.fromBytes_bytes, rfl⟩, (List.append_nil _).symm⟩

/-- The byte strings the name field accepts for a name: a length byte, then the label — bare, or
with the suffix that parsing strips. -/
def NameField (name : Name) (e : List UInt8) : Prop :=
  ∃ field, (field = name.bytes ∨ field = name.bytes ++ lit ".zec") ∧
    e = UInt8.ofNat field.length :: field

/-- `Name::parse` accepts exactly the label and the label with its suffix. -/
theorem parse_eq_ok_iff {value : Str} {name : Name} :
    Name.parse value = .ok name ↔
      value.bytes = name.bytes ∨ value.bytes = name.bytes ++ lit ".zec" := by
  constructor
  · intro h
    rw [Name.parse] at h
    split at h
    · cases h
    · cases h
      by_cases hsuffix : lit ".zec" <:+ value.bytes
      · obtain ⟨t, ht⟩ := hsuffix
        right
        simp only [stripSuffix, ← ht, List.suffix_append, if_true, Option.getD_some,
          List.length_append, Nat.add_sub_cancel, List.take_left]
      · left
        simp only [stripSuffix, hsuffix, if_false, Option.getD_none]
  · rintro (h | h)
    · have hvalue : value = name.asStr := by
        rcases value with ⟨bytes, hutf8⟩
        cases h
        rfl
      rw [hvalue, name.parse_asStr]
    · have hbare : (stripSuffix (lit ".zec") value.bytes).getD value.bytes = name.bytes := by
        rw [h, stripSuffix, if_pos (List.suffix_append _ _), Option.getD_some, List.length_append,
          Nat.add_sub_cancel, List.take_left]
      rw [Name.parse]
      simp only [hbare]
      exact dif_neg name.wellFormed

theorem recognises_name : Recognises name NameField := by
  refine (recognises_u8.bind fun length ↦ (Recognises.bytes length.toNat _).bind fun raw ↦
    (recognises_utf8 raw _).bind fun value ↦ recognises_checked (Name.parse value) _).congr
      fun name e ↦ ?_
  constructor
  · rintro ⟨length, _, _, rfl, ⟨raw, _, _, ⟨hlen, rfl⟩, ⟨value, _, _, ⟨rfl, rfl⟩, ⟨hparse, rfl⟩,
      rfl⟩, rfl⟩, rfl⟩
    refine ⟨value.bytes, parse_eq_ok_iff.1 hparse, ?_⟩
    rw [hlen, UInt8.ofNat_toNat]
    simp
  · rintro ⟨field, hfield, rfl⟩
    have hascii : ∀ b ∈ field, b < 128 := by
      intro b hb
      rcases hfield with rfl | rfl
      · exact name.ascii hb
      · rcases List.mem_append.1 hb with hb | hb
        · exact name.ascii hb
        · rw [lit_zec] at hb
          fin_cases hb <;> decide
    have hlen : field.length < 256 := by
      have hname : name.bytes.length ≤ 63 := name.length_le
      rcases hfield with rfl | rfl
      · omega
      · rw [List.length_append, lit_zec, List.length_cons, List.length_cons]
        simp
        omega
    have htoNat : (UInt8.ofNat field.length).toNat = field.length := by
      rw [UInt8.toNat_ofNat']
      exact Nat.mod_eq_of_lt hlen
    refine ⟨UInt8.ofNat field.length, [_], field, rfl, ⟨field, field, [], ⟨htoNat.symm, rfl⟩,
      ⟨⟨field, isValidUTF8_of_ascii hascii⟩, [], [], ⟨rfl, rfl⟩,
        ⟨parse_eq_ok_iff.2 hfield, rfl⟩, rfl⟩, by simp⟩, by simp⟩

theorem recognises_commitRef : Recognises commitRef fun r e ↦ e = encodeCommitRef r := by
  refine (recognises_u32.bind fun height ↦ recognises_u32.bind fun txIndex ↦
    (recognises_take 32).bind fun txid ↦ Recognises.pure (CommitRef.mk height txIndex txid)).congr
      fun r e ↦ ?_
  constructor
  · rintro ⟨_, _, _, rfl, ⟨_, _, _, rfl, ⟨_, _, _, rfl, ⟨rfl, rfl⟩, rfl⟩, rfl⟩, rfl⟩
    simp [encodeCommitRef]
  · rintro rfl
    exact ⟨_, _, _, rfl, ⟨_, _, _, rfl, ⟨_, _, _, rfl, ⟨rfl, rfl⟩, rfl⟩, rfl⟩,
      by simp [encodeCommitRef]⟩

theorem recognises_stateRef : Recognises stateRef fun r e ↦ e = encodeStateRef r := by
  refine (recognises_u32.bind fun height ↦ recognises_u32.bind fun txIndex ↦
    (recognises_take 32).bind fun txid ↦ recognises_u32.bind fun actionIndex ↦
      Recognises.pure (StateRef.mk height txIndex txid actionIndex)).congr fun r e ↦ ?_
  constructor
  · rintro ⟨_, _, _, rfl, ⟨_, _, _, rfl, ⟨_, _, _, rfl, ⟨_, _, _, rfl, ⟨rfl, rfl⟩, rfl⟩, rfl⟩,
      rfl⟩, rfl⟩
    simp [encodeStateRef]
  · rintro rfl
    exact ⟨_, _, _, rfl, ⟨_, _, _, rfl, ⟨_, _, _, rfl, ⟨_, _, _, rfl, ⟨rfl, rfl⟩, rfl⟩, rfl⟩, rfl⟩,
      by simp [encodeStateRef]⟩

end Decoder

section Formats

variable [Primitives]

namespace Decoder

/-- The bytes of a Unified Address field. -/
def uaField (ua : CanonicalUa) : List UInt8 :=
  beBytes 2 ua.value.bytes.length ++ ua.value.bytes

theorem recognises_ua (network : Network) :
    Recognises (ua network) fun u e ↦ u.CanonicalFor network ∧ e = uaField u := by
  refine (recognises_u16.bind fun length ↦ (Recognises.bytes length _).bind fun raw ↦
    (recognises_utf8 raw _).bind fun value ↦
      recognises_checked (CanonicalUa.parse network value) _).congr fun u e ↦ ?_
  constructor
  · rintro ⟨length, _, _, ⟨-, rfl⟩, ⟨raw, _, _, ⟨hlen, rfl⟩, ⟨value, _, _, ⟨rfl, rfl⟩,
      ⟨hparse, rfl⟩, rfl⟩, rfl⟩, rfl⟩
    obtain ⟨rfl, hcanonical⟩ := CanonicalUa.parse_eq_ok_iff.1 hparse
    exact ⟨hcanonical, by rw [uaField, hlen]; simp⟩
  · rintro ⟨hcanonical, rfl⟩
    have hlen : u.value.bytes.length ≤ 1024 := u.length_le
    exact ⟨u.value.bytes.length, _, u.value.bytes, ⟨by omega, rfl⟩,
      ⟨u.value.bytes, u.value.bytes, [], ⟨rfl, rfl⟩, ⟨u.value, [], [], ⟨rfl, rfl⟩,
        ⟨CanonicalUa.parse_eq_ok_iff.2 ⟨rfl, hcanonical⟩, rfl⟩, rfl⟩, by simp⟩, rfl⟩

end Decoder

/-! ### Operation layouts -/

/-- The fields of a REVEAL after the tag, given the bytes of its name field. -/
def revealLayout (op : Reveal) (nameField : List UInt8) : List UInt8 :=
  nameField ++ (encodeCommitRef op.commit ++ (Decoder.uaField op.ua ++
    (encodeU32 op.actionIndex ++ (op.successorFutureNf.bytes.toList ++ op.proof))))

/-- The fields of a REFRESH after the tag, given the bytes of its name field. -/
def refreshLayout (op : Refresh) (nameField : List UInt8) : List UInt8 :=
  nameField ++ (encodeStateRef op.predecessor ++ (Decoder.uaField op.ua ++
    (encodeU32 op.actionIndex ++ (op.successorFutureNf.bytes.toList ++ op.proof))))

/-- The byte strings that decode to an operation. -/
def Accepts (network : Network) (parameters : CodecParameters) :
    Operation → List UInt8 → Prop
  | .commit commitment, e => e = 0 :: commitment.bytes.toList
  | .reveal op, e => op.ua.CanonicalFor network ∧
      op.proof.length = parameters.revealProofBytes ∧
      ∃ nameField, Decoder.NameField op.name nameField ∧ e = 1 :: revealLayout op nameField
  | .refresh op, e => op.ua.CanonicalFor network ∧
      op.proof.length = parameters.refreshProofBytes ∧
      ∃ nameField, Decoder.NameField op.name nameField ∧ e = 2 :: refreshLayout op nameField

namespace Decoder

theorem recognises_commitOp :
    Recognises commitOp fun op e ↦ ∃ c, op = .commit c ∧ e = c.bytes.toList := by
  refine ((recognises_take 32).bind fun v ↦ (recognises_checked (Commitment.fromBytes v) _).bind
    fun c ↦ Recognises.pure (Operation.commit c)).congr fun op e ↦ ?_
  constructor
  · rintro ⟨v, _, _, rfl, ⟨c, _, _, ⟨hc, rfl⟩, ⟨rfl, rfl⟩, rfl⟩, rfl⟩
    exact ⟨c, rfl, by rw [Commitment.fromBytes_eq_ok hc]; simp⟩
  · rintro ⟨c, rfl, rfl⟩
    exact ⟨c.bytes, _, [], rfl, ⟨c, [], [], ⟨c.fromBytes_bytes, rfl⟩, ⟨rfl, rfl⟩, rfl⟩, by simp⟩

theorem recognises_revealOp (network : Network) (proofBytes : ℕ) :
    Recognises (revealOp network proofBytes) fun op e ↦ ∃ r, op = .reveal r ∧
      r.ua.CanonicalFor network ∧ r.proof.length = proofBytes ∧
      ∃ nameField, NameField r.name nameField ∧ e = revealLayout r nameField := by
  refine (recognises_name.bind fun name ↦ recognises_commitRef.bind fun commit ↦
    (recognises_ua network).bind fun ua ↦ recognises_u32.bind fun actionIndex ↦
      recognises_fieldElement.bind fun nf ↦ (Recognises.bytes proofBytes _).bind fun proof ↦
        Recognises.pure (Operation.reveal ⟨name, commit, ua, actionIndex, nf, proof⟩)).congr
          fun op e ↦ ?_
  constructor
  · rintro ⟨name, field, _, hname, ⟨commit, _, _, rfl, ⟨ua, _, _, ⟨hua, rfl⟩, ⟨index, _, _, rfl,
      ⟨nf, _, _, rfl, ⟨_, proof, _, ⟨hproof, rfl⟩, ⟨rfl, rfl⟩, rfl⟩, rfl⟩, rfl⟩, rfl⟩, rfl⟩, rfl⟩
    exact ⟨⟨name, commit, ua, index, nf, proof⟩, rfl, hua, hproof, field, hname,
      by simp [revealLayout]⟩
  · rintro ⟨r, rfl, hua, hproof, field, hname, rfl⟩
    exact ⟨r.name, field, _, hname, ⟨r.commit, _, _, rfl, ⟨r.ua, _, _, ⟨hua, rfl⟩,
      ⟨r.actionIndex, _, _, rfl, ⟨r.successorFutureNf, _, _, rfl, ⟨r.proof, _, _, ⟨hproof, rfl⟩,
        ⟨rfl, rfl⟩, rfl⟩, rfl⟩, rfl⟩, rfl⟩, rfl⟩, by simp [revealLayout]⟩

theorem recognises_refreshOp (network : Network) (proofBytes : ℕ) :
    Recognises (refreshOp network proofBytes) fun op e ↦ ∃ r, op = .refresh r ∧
      r.ua.CanonicalFor network ∧ r.proof.length = proofBytes ∧
      ∃ nameField, NameField r.name nameField ∧ e = refreshLayout r nameField := by
  refine (recognises_name.bind fun name ↦ recognises_stateRef.bind fun predecessor ↦
    (recognises_ua network).bind fun ua ↦ recognises_u32.bind fun actionIndex ↦
      recognises_fieldElement.bind fun nf ↦ (Recognises.bytes proofBytes _).bind fun proof ↦
        Recognises.pure (Operation.refresh ⟨name, predecessor, ua, actionIndex, nf, proof⟩)).congr
          fun op e ↦ ?_
  constructor
  · rintro ⟨name, field, _, hname, ⟨pred, _, _, rfl, ⟨ua, _, _, ⟨hua, rfl⟩, ⟨index, _, _, rfl,
      ⟨nf, _, _, rfl, ⟨_, proof, _, ⟨hproof, rfl⟩, ⟨rfl, rfl⟩, rfl⟩, rfl⟩, rfl⟩, rfl⟩, rfl⟩, rfl⟩
    exact ⟨⟨name, pred, ua, index, nf, proof⟩, rfl, hua, hproof, field, hname,
      by simp [refreshLayout]⟩
  · rintro ⟨r, rfl, hua, hproof, field, hname, rfl⟩
    exact ⟨r.name, field, _, hname, ⟨r.predecessor, _, _, rfl, ⟨r.ua, _, _, ⟨hua, rfl⟩,
      ⟨r.actionIndex, _, _, rfl, ⟨r.successorFutureNf, _, _, rfl, ⟨r.proof, _, _, ⟨hproof, rfl⟩,
        ⟨rfl, rfl⟩, rfl⟩, rfl⟩, rfl⟩, rfl⟩, rfl⟩, by simp [refreshLayout]⟩

/-- What follows the tag byte, by tag. -/
theorem recognises_operation (network : Network) (parameters : CodecParameters) :
    Recognises (operation network parameters) (Accepts network parameters) := by
  have htail : ∀ tag : UInt8, Recognises
      (if tag = 0 then commitOp
        else if tag = 1 then revealOp network parameters.revealProofBytes
        else if tag = 2 then refreshOp network parameters.refreshProofBytes
        else throw .invalidTag)
      fun op e ↦ Accepts network parameters op (tag :: e) := by
    intro tag
    split
    · rename_i h
      refine recognises_commitOp.congr fun op e ↦ ?_
      cases op <;> simp [Accepts, h]
    split
    · rename_i h
      refine (recognises_revealOp network _).congr fun op e ↦ ?_
      cases op <;> simp [Accepts, h]
    split
    · rename_i h
      refine (recognises_refreshOp network _).congr fun op e ↦ ?_
      cases op <;> simp [Accepts, h]
    · rename_i h₀ h₁ h₂
      refine (recognises_throw _).congr fun op e ↦ ?_
      cases op <;> simp [Accepts, h₀, h₁, h₂]
  refine (recognises_u8.bind htail).congr fun op e ↦ ?_
  constructor
  · rintro ⟨tag, _, rest, rfl, h, rfl⟩
    exact h
  · intro h
    cases op with
    | commit c => exact ⟨0, [0], c.bytes.toList, rfl, rfl, h⟩
    | reveal r =>
      obtain ⟨hua, hproof, field, hname, rfl⟩ := h
      exact ⟨1, [1], _, rfl, ⟨hua, hproof, field, hname, rfl⟩, rfl⟩
    | refresh r =>
      obtain ⟨hua, hproof, field, hname, rfl⟩ := h
      exact ⟨2, [2], _, rfl, ⟨hua, hproof, field, hname, rfl⟩, rfl⟩

end Decoder

/-- **What `decode` accepts.** -/
theorem decode_eq_ok_iff {bytes : List UInt8} {network : Network} {parameters : CodecParameters}
    {operation : Operation} :
    decode bytes network parameters = .ok operation ↔
      parameters.validate = .ok () ∧ Accepts network parameters operation bytes := by
  rw [decode]
  split
  · rename_i e h
    simp [h]
  · rename_i h
    rw [(Decoder.recognises_operation network parameters).runAll]
    simp [h]

/-! ### The encoder -/

theorem encodeUa_eq (ua : CanonicalUa) : encodeUa ua = .ok (Decoder.uaField ua) := by
  have hlen : ua.value.bytes.length ≤ 1024 := ua.length_le
  exact if_pos (by omega)

namespace Operation

/-- The operation carries an address that is canonical for the network, if it carries one. -/
def UaCanonicalFor (network : Network) : Operation → Prop
  | .commit _ => True
  | .reveal op => op.ua.CanonicalFor network
  | .refresh op => op.ua.CanonicalFor network

/-- The operation's proof has the length the deployment fixes for its kind. -/
def ProofFits (parameters : CodecParameters) : Operation → Prop
  | .commit _ => True
  | .reveal op => op.proof.length = parameters.revealProofBytes
  | .refresh op => op.proof.length = parameters.refreshProofBytes

/-- The specified size of an encoded operation. -/
def encodedSize (parameters : CodecParameters) : Operation → ℕ
  | .commit _ => 33
  | .reveal op => 1 + (1 + op.name.bytes.length) + 40 + (2 + op.ua.value.bytes.length) + 4 + 32 +
      parameters.revealProofBytes
  | .refresh op => 1 + (1 + op.name.bytes.length) + 44 + (2 + op.ua.value.bytes.length) + 4 + 32 +
      parameters.refreshProofBytes

/-- The one encoding `encode` writes: every name bare. -/
def canonicalEncoding : Operation → List UInt8
  | .commit commitment => 0 :: commitment.bytes.toList
  | .reveal op => 1 :: revealLayout op (encodeName op.name)
  | .refresh op => 2 :: refreshLayout op (encodeName op.name)

theorem canonicalEncoding_length {parameters : CodecParameters} {operation : Operation}
    (h : operation.ProofFits parameters) :
    operation.canonicalEncoding.length = operation.encodedSize parameters := by
  cases operation with
  | commit c => simp [canonicalEncoding, encodedSize]
  | reveal op =>
    have hproof : op.proof.length = parameters.revealProofBytes := h
    simp [canonicalEncoding, encodedSize, revealLayout, encodeName, encodeCommitRef, encodeU32,
      Decoder.uaField, hproof]
    omega
  | refresh op =>
    have hproof : op.proof.length = parameters.refreshProofBytes := h
    simp [canonicalEncoding, encodedSize, refreshLayout, encodeName, encodeStateRef, encodeU32,
      Decoder.uaField, hproof]
    omega

/-- The two proof-length caps absorb the longest name and address. -/
theorem encodedSize_le {parameters : CodecParameters} (h : parameters.validate = .ok ())
    (operation : Operation) : operation.encodedSize parameters ≤ 16057 := by
  have hcaps : parameters.revealProofBytes ≤ 14890 ∧ parameters.refreshProofBytes ≤ 14886 := by
    rw [CodecParameters.validate] at h
    split at h
    · cases h
    · rename_i hle
      simp only [maxRevealProofBytes, maxRefreshProofBytes] at hle
      omega
  cases operation with
  | commit c => simp [encodedSize]
  | reveal op =>
    have hname : op.name.bytes.length ≤ 63 := op.name.length_le
    have hua : op.ua.value.bytes.length ≤ 1024 := op.ua.length_le
    simp only [encodedSize]
    omega
  | refresh op =>
    have hname : op.name.bytes.length ≤ 63 := op.name.length_le
    have hua : op.ua.value.bytes.length ≤ 1024 := op.ua.length_le
    simp only [encodedSize]
    omega

/-- The bare label is among the name fields the decoder accepts. -/
theorem accepts_canonicalEncoding {network : Network} {parameters : CodecParameters}
    {operation : Operation} (hua : operation.UaCanonicalFor network)
    (hproof : operation.ProofFits parameters) :
    Accepts network parameters operation operation.canonicalEncoding := by
  cases operation with
  | commit c => rfl
  | reveal op => exact ⟨hua, hproof, _, ⟨_, Or.inl rfl, rfl⟩, rfl⟩
  | refresh op => exact ⟨hua, hproof, _, ⟨_, Or.inl rfl, rfl⟩, rfl⟩

end Operation

/-- **What `encode` writes.** -/
theorem encode_eq_ok_iff {operation : Operation} {parameters : CodecParameters}
    {out : List UInt8} :
    encode operation parameters = .ok out ↔
      parameters.validate = .ok () ∧ operation.ProofFits parameters ∧
        out = operation.canonicalEncoding ∧ out.length ≤ Primitives.maxApplicationPayloadLen := by
  have hfields : encodeFields operation parameters = .ok out ↔
      operation.ProofFits parameters ∧ out = operation.canonicalEncoding := by
    cases operation with
    | commit c => simp [encodeFields, Operation.ProofFits, Operation.canonicalEncoding, eq_comm]
    | reveal op =>
      simp only [encodeFields, encodeUa_eq, Operation.ProofFits, Operation.canonicalEncoding,
        revealLayout]
      split <;> simp_all [eq_comm]
    | refresh op =>
      simp only [encodeFields, encodeUa_eq, Operation.ProofFits, Operation.canonicalEncoding,
        refreshLayout]
      split <;> simp_all [eq_comm]
  rw [encode]
  split
  · rename_i e h
    simp [h]
  · rename_i h
    split
    · rename_i e hf
      rw [hf] at hfields
      constructor
      · intro h
        cases h
      · rintro ⟨-, hproof, hout, -⟩
        cases hfields.2 ⟨hproof, hout⟩
    · rename_i out' hf
      rw [hf, Except.ok.injEq] at hfields
      split
      · rename_i hlen
        constructor
        · intro h
          cases h
        · rintro ⟨-, hproof, hout, hle⟩
          rw [hfields.2 ⟨hproof, hout⟩] at hlen
          omega
      · rename_i hlen
        rw [Except.ok.injEq, hfields]
        constructor
        · rintro ⟨hproof, hout⟩
          rw [hfields.2 ⟨hproof, hout⟩] at hlen
          exact ⟨h, hproof, hout, Nat.le_of_not_lt hlen⟩
        · rintro ⟨-, hproof, hout, -⟩
          exact ⟨hproof, hout⟩

/-! ### Encoding, then decoding -/

/-- **Encode then decode is the identity.** Every operation whose address is canonical for the
network and whose proof has the deployment's length encodes to exactly the specified size and
decodes to itself. The size never exceeds 16,057 bytes, so a carrier that admits that many never
sees `TooLarge`. -/
theorem decode_encode (network : Network) (parameters : CodecParameters) (operation : Operation)
    (hparameters : parameters.validate = .ok ()) (hua : operation.UaCanonicalFor network)
    (hproof : operation.ProofFits parameters)
    (hcore : 16057 ≤ Primitives.maxApplicationPayloadLen) :
    ∃ out, encode operation parameters = .ok out ∧
      out.length = operation.encodedSize parameters ∧
      decode out network parameters = .ok operation := by
  have hlen := Operation.canonicalEncoding_length hproof
  have hle := Operation.encodedSize_le hparameters operation
  refine ⟨operation.canonicalEncoding, ?_, hlen, ?_⟩
  · exact encode_eq_ok_iff.2 ⟨hparameters, hproof, rfl, by omega⟩
  · exact decode_eq_ok_iff.2 ⟨hparameters, Operation.accepts_canonicalEncoding hua hproof⟩

end Formats

/-- A REVEAL of `alice` for regtest survives the round trip. -/
theorem Sample.decode_encode_reveal :
    ∃ out, encode (.reveal Sample.reveal) Sample.codecParameters = .ok out ∧
      out.length = Operation.encodedSize Sample.codecParameters (.reveal Sample.reveal) ∧
      decode out .regtest Sample.codecParameters = .ok (.reveal Sample.reveal) :=
  decode_encode .regtest Sample.codecParameters (.reveal Sample.reveal) rfl
    ua_canonicalFor rfl (by decide)

/-! ### Prefixes -/

section Prefixes

variable [Primitives]

/-- An accepted byte string is rejected with anything after it. -/
theorem decode_append {bytes more : List UInt8} {network : Network} {parameters : CodecParameters}
    {operation : Operation} (h : decode bytes network parameters = .ok operation)
    (hmore : more ≠ []) : decode (bytes ++ more) network parameters = .error .trailingBytes := by
  obtain ⟨hparameters, haccepts⟩ := decode_eq_ok_iff.1 h
  rw [decode, hparameters]
  exact (Decoder.recognises_operation network parameters).runAll_append haccepts hmore

/-- **Accepted encodings are prefix-free.** What follows an accepted string is trailing bytes, and
what it is cut to is an error. -/
theorem decode_prefix_free {bytes : List UInt8} {network : Network} {parameters : CodecParameters}
    {operation : Operation} (h : decode bytes network parameters = .ok operation) :
    (∀ more, more ≠ [] → decode (bytes ++ more) network parameters = .error .trailingBytes) ∧
      ∀ front, front <+: bytes → front ≠ bytes →
        ∃ e, decode front network parameters = .error e := by
  refine ⟨fun more hmore ↦ decode_append h hmore, ?_⟩
  rintro front ⟨more, rfl⟩ hproper
  rcases hfront : decode front network parameters with e | found
  · exact ⟨e, rfl⟩
  · -- an accepted prefix would make the whole string one with trailing bytes
    have hmore : more ≠ [] := by
      rintro rfl
      exact hproper (List.append_nil _).symm
    rw [decode_append hfront hmore] at h
    exact absurd h (by simp)

end Prefixes

/-! ### Decoding, then encoding -/

/-- The name field a REVEAL or a REFRESH holds: the bytes its length byte announces. -/
def embeddedName : List UInt8 → List UInt8
  | tag :: length :: rest => if tag = 1 ∨ tag = 2 then rest.take length.toNat else []
  | _ => []

/-- The byte string holds a name field that ends in `.zec`. -/
def HasZecSuffix (bytes : List UInt8) : Prop :=
  lit ".zec" <:+ embeddedName bytes

theorem embeddedName_cons {tag : UInt8} (htag : tag = 1 ∨ tag = 2) {field rest : List UInt8}
    (hlen : field.length < 256) :
    embeddedName (tag :: (UInt8.ofNat field.length :: field ++ rest)) = field := by
  have htoNat : (UInt8.ofNat field.length).toNat = field.length := by
    rw [UInt8.toNat_ofNat']
    exact Nat.mod_eq_of_lt hlen
  rw [List.cons_append, embeddedName, if_pos htag, htoNat, List.take_left]

/-- The two name fields of a layout: with the bare label the string has no suffix and is the
canonical encoding, with the suffix it is neither. -/
theorem layout_cases {tag : UInt8} (htag : tag = 1 ∨ tag = 2) {name : Name}
    {nameField : List UInt8} (hfield : Decoder.NameField name nameField) (rest : List UInt8) :
    (nameField = encodeName name ∧ ¬ HasZecSuffix (tag :: (nameField ++ rest))) ∨
      (nameField = UInt8.ofNat (name.bytes ++ lit ".zec").length :: (name.bytes ++ lit ".zec") ∧
        HasZecSuffix (tag :: (nameField ++ rest))) := by
  have hname : name.bytes.length ≤ 63 := name.length_le
  obtain ⟨field, rfl | rfl, rfl⟩ := hfield
  · left
    refine ⟨rfl, ?_⟩
    rw [HasZecSuffix, embeddedName_cons htag (by omega)]
    exact name.not_zec_suffix
  · right
    refine ⟨rfl, ?_⟩
    rw [HasZecSuffix, embeddedName_cons htag (by rw [List.length_append, lit_zec]; simp; omega)]
    exact List.suffix_append _ _

section Canonicity

variable [Primitives]

/-- An accepted string is its operation's canonical encoding exactly when it has no suffix, and any
other accepted string for the same operation differs from it exactly there. -/
theorem accepts_cases {network : Network} {parameters : CodecParameters} {operation : Operation}
    {bytes : List UInt8} (h : Accepts network parameters operation bytes) :
    (bytes = operation.canonicalEncoding ↔ ¬ HasZecSuffix bytes) ∧
      ∀ other, Accepts network parameters operation other →
        (other = bytes ↔ (HasZecSuffix other ↔ HasZecSuffix bytes)) := by
  have key : ∀ {tag : UInt8} {name : Name} (_ : tag = 1 ∨ tag = 2) {e e' : List UInt8}
      (_ : Decoder.NameField name e) (_ : Decoder.NameField name e') (rest : List UInt8),
      (tag :: (e ++ rest) = tag :: (e' ++ rest) ↔
        (HasZecSuffix (tag :: (e ++ rest)) ↔ HasZecSuffix (tag :: (e' ++ rest)))) := by
    intro tag name htag e e' he he' rest
    constructor
    · intro heq
      rw [heq]
    · intro hiff
      rcases layout_cases htag he rest with ⟨hf, hs⟩ | ⟨hf, hs⟩ <;>
        rcases layout_cases htag he' rest with ⟨hf', hs'⟩ | ⟨hf', hs'⟩
      · rw [hf, hf']
      · exact absurd (hiff.2 hs') hs
      · exact absurd (hiff.1 hs) hs'
      · rw [hf, hf']
  have hbare : ∀ name : Name, Decoder.NameField name (encodeName name) :=
    fun name ↦ ⟨name.bytes, Or.inl rfl, rfl⟩
  have hnone : ∀ {tag : UInt8} (name : Name) (_ : tag = 1 ∨ tag = 2) (rest : List UInt8),
      ¬ HasZecSuffix (tag :: (encodeName name ++ rest)) := by
    intro tag name htag rest
    rcases layout_cases htag (hbare name) rest with ⟨-, hs⟩ | ⟨hf, -⟩
    · exact hs
    · -- the two fields have different lengths
      have hlen := congrArg List.length hf
      simp [encodeName, lit_zec] at hlen
  cases operation with
  | commit c =>
    have hbytes : bytes = 0 :: c.bytes.toList := h
    subst hbytes
    have hsuffix : ¬ HasZecSuffix (0 :: c.bytes.toList) := by
      have hempty : embeddedName (0 :: c.bytes.toList) = [] := by
        rcases c.bytes.toList with - | ⟨x, xs⟩ <;> simp [embeddedName]
      rw [HasZecSuffix, hempty, lit_zec]
      simp
    refine ⟨⟨fun _ ↦ hsuffix, fun _ ↦ rfl⟩, ?_⟩
    intro other hother
    have hother' : other = 0 :: c.bytes.toList := hother
    simp [hother']
  | reveal op =>
    obtain ⟨-, -, e, he, rfl⟩ := h
    refine ⟨?_, ?_⟩
    · refine (key (Or.inl rfl) he (hbare op.name) _).trans ?_
      exact ⟨fun hiff hs ↦ hnone op.name (Or.inl rfl) _ (hiff.1 hs),
        fun hs ↦ iff_of_false hs (hnone op.name (Or.inl rfl) _)⟩
    · rintro _ ⟨-, -, e', he', rfl⟩
      exact key (Or.inl rfl) he' he _
  | refresh op =>
    obtain ⟨-, -, e, he, rfl⟩ := h
    refine ⟨?_, ?_⟩
    · refine (key (Or.inr rfl) he (hbare op.name) _).trans ?_
      exact ⟨fun hiff hs ↦ hnone op.name (Or.inr rfl) _ (hiff.1 hs),
        fun hs ↦ iff_of_false hs (hnone op.name (Or.inr rfl) _)⟩
    · rintro _ ⟨-, -, e', he', rfl⟩
      exact key (Or.inr rfl) he' he _

/-- **Decode then encode** gives back an accepted byte string exactly when the name field it holds
does not end in `.zec`; and two accepted byte strings for one operation are equal exactly when both
or neither hold such a field. -/
theorem encode_of_decode_iff (bytes : List UInt8) (network : Network)
    (parameters : CodecParameters) (operation : Operation)
    (hlen : bytes.length ≤ Primitives.maxApplicationPayloadLen)
    (hdecode : decode bytes network parameters = .ok operation) :
    (encode operation parameters = .ok bytes ↔ ¬ HasZecSuffix bytes) ∧
      ∀ other, decode other network parameters = .ok operation →
        (other = bytes ↔ (HasZecSuffix other ↔ HasZecSuffix bytes)) := by
  obtain ⟨hparameters, haccepts⟩ := decode_eq_ok_iff.1 hdecode
  obtain ⟨hcanonical, hother⟩ := accepts_cases haccepts
  have hproof : operation.ProofFits parameters := by
    cases operation with
    | commit c => trivial
    | reveal op => exact haccepts.2.1
    | refresh op => exact haccepts.2.1
  constructor
  · rw [encode_eq_ok_iff, ← hcanonical]
    exact ⟨fun h ↦ h.2.2.1, fun h ↦ ⟨hparameters, hproof, h, hlen⟩⟩
  · intro other hdec
    exact hother other (decode_eq_ok_iff.1 hdec).2

end Canonicity

namespace Sample

/-- The bytes of `reveal`, with the name field `alice.zec` in place of `alice`. -/
def zecBytes : List UInt8 :=
  1 :: revealLayout reveal (9 :: lit "alice.zec")

/-- The decoder accepts the suffixed name and forgets the suffix. -/
theorem decode_zecBytes : decode zecBytes .regtest codecParameters = .ok (.reveal reveal) := by
  decide +kernel

/-- Two byte strings decode to the same REVEAL, and the encoder writes only the other one. -/
theorem decode_not_canonical :
    ∃ bytes operation, bytes.length ≤ Primitives.maxApplicationPayloadLen ∧
      codecParameters.validate = .ok () ∧
      decode bytes .regtest codecParameters = .ok operation ∧
      encode operation codecParameters ≠ .ok bytes ∧
      ∃ other, other ≠ bytes ∧ decode other .regtest codecParameters = .ok operation := by
  refine ⟨zecBytes, .reveal reveal, by decide +kernel, rfl, decode_zecBytes, by decide +kernel,
    Operation.canonicalEncoding (.reveal reveal), by decide +kernel, by decide +kernel⟩

/-- Nothing extends the suffixed REVEAL, and nothing it extends decodes. -/
theorem decode_prefix_free_zecBytes :
    (∀ more, more ≠ [] →
        decode (zecBytes ++ more) .regtest codecParameters = .error .trailingBytes) ∧
      ∀ front, front <+: zecBytes → front ≠ zecBytes →
        ∃ e, decode front .regtest codecParameters = .error e :=
  decode_prefix_free decode_zecBytes

/-- At the bare name the string is canonical, and it is the only one without a suffix. -/
theorem encode_of_decode_alice :
    (encode (.reveal reveal) codecParameters =
        .ok (Operation.canonicalEncoding (.reveal reveal)) ↔
      ¬ HasZecSuffix (Operation.canonicalEncoding (.reveal reveal))) ∧
      ∀ other, decode other .regtest codecParameters = .ok (.reveal reveal) →
        (other = Operation.canonicalEncoding (.reveal reveal) ↔
          (HasZecSuffix other ↔
            HasZecSuffix (Operation.canonicalEncoding (.reveal reveal)))) :=
  encode_of_decode_iff (Operation.canonicalEncoding (.reveal reveal)) .regtest codecParameters
    (.reveal reveal) (by decide +kernel) (by decide +kernel)

end Sample

end CoppiceNames
