import CoppiceNames.Library.Slices
import CoppiceNames.Wallet.Recovery

/-!
# Checkpoint envelopes

`checkpoint.rs`: a payload under a header and a keyed tag. The header carries the length of the
payload, and the tag covers header and payload.

The reader takes slices at fixed offsets and one at an offset the header chooses; a slice outside
the envelope would panic. Such a panic is `none` here.
-/

namespace CoppiceNames

/-- `MAGIC`. -/
def checkpointMagic : List UInt8 := lit "CNWC"

/-- `FORMAT_VERSION`. -/
def formatVersion : UInt8 := 1

/-- `HEADER_BYTES`. -/
def headerBytes : ℕ := 4 + 1 + 32 + 4

/-- `TAG_BYTES`. -/
def tagBytes : ℕ := 32

/-- `CheckpointError`. -/
inductive CheckpointError
  | wrongSeedLength
  | payloadTooLarge
  | invalidEncoding
  | unsupportedFormat
  | deploymentMismatch
  | authenticationFailed
  deriving DecidableEq, Repr

/-- `checked_add` on `usize`, of 64 bits. -/
def usizeCheckedAdd (a b : ℕ) : Option ℕ :=
  if a + b < 2 ^ 64 then some (a + b) else none

theorem usizeCheckedAdd_eq_some {a b : ℕ} (h : a + b < 2 ^ 64) :
    usizeCheckedAdd a b = some (a + b) :=
  if_pos h

section Checkpoint

variable [Primitives] [KeyedHash] (walletSeed : List UInt8) (deploymentId : Bytes32)

/-- `checkpoint_key`. -/
def checkpointKey : Option (Except CheckpointError Bytes32) :=
  match deriveNamesMaster walletSeed with
  | .ok master =>
    some (.ok (KeyedHash.keyedHash32 (lit "CoppiceNmCKey") master.toList deploymentId.toList))
  | .error .wrongSeedLength => some (.error .wrongSeedLength)
  | .error _ => none

/-- The header of `seal_checkpoint`. -/
def checkpointHeader (payloadLen : U32) : List UInt8 :=
  checkpointMagic ++ ([formatVersion] ++ (deploymentId.toList ++ encodeU32 payloadLen))

/-- The tag of a header and a payload under a checkpoint key. -/
def checkpointTag (key : Bytes32) (covered : List UInt8) : List UInt8 :=
  (KeyedHash.keyedHash32 (lit "CoppiceNmCTag") key.toList covered).toList

/-- `seal_checkpoint`. -/
def sealCheckpoint (payload : List UInt8) : Option (Except CheckpointError (List UInt8)) :=
  match U32.ofUsize payload.length with
  | none => some (.error .payloadTooLarge)
  | some payloadLen => do
    match ← checkpointKey walletSeed deploymentId with
    | .error e => return .error e
    | .ok key =>
      let output := checkpointHeader deploymentId payloadLen ++ payload
      return .ok (output ++ checkpointTag key output)

/-- `open_checkpoint`. -/
def openCheckpoint (envelope : List UInt8) : Option (Except CheckpointError (List UInt8)) :=
  if envelope.length < headerBytes + tagBytes then some (.error .invalidEncoding)
  else do
    if (← envelope.slice? 0 4) ≠ checkpointMagic then return .error .invalidEncoding else
    if (← envelope[4]?) ≠ formatVersion then return .error .unsupportedFormat else
    if (← envelope.slice? 5 37) ≠ deploymentId.toList then return .error .deploymentMismatch else
    let payloadLen := beNat (← envelope.slice? 37 41)
    match (usizeCheckedAdd headerBytes payloadLen).bind (usizeCheckedAdd · tagBytes) with
    | none => return .error .invalidEncoding
    | some expectedLen =>
      if envelope.length ≠ expectedLen then return .error .invalidEncoding else
      let tagStart ← usizeCheckedAdd headerBytes payloadLen
      match ← checkpointKey walletSeed deploymentId with
      | .error e => return .error e
      | .ok key =>
        let expected := checkpointTag key (← envelope.slice? 0 tagStart)
        if expected ≠ (← envelope.slice? tagStart envelope.length) then
          return .error .authenticationFailed
        else return .ok (← envelope.slice? headerBytes tagStart)

end Checkpoint

/-! ### The parts of an envelope -/

/-- A byte string long enough for a header, cut at the offsets of the header. -/
structure Layout where
  magic : List UInt8
  version : UInt8
  deployment : List UInt8
  payloadLen : List UInt8
  body : List UInt8
  magic_length : magic.length = 4
  deployment_length : deployment.length = 32
  payloadLen_length : payloadLen.length = 4

namespace Layout

variable (layout : Layout)

/-- The bytes before the body. -/
def header : List UInt8 :=
  layout.magic ++ ([layout.version] ++ (layout.deployment ++ layout.payloadLen))

/-- The whole byte string. -/
def bytes : List UInt8 :=
  layout.header ++ layout.body

/-- The length that the header announces. -/
def announced : ℕ :=
  beNat layout.payloadLen

theorem announced_lt : layout.announced < 2 ^ 32 := by
  have h := beNat_lt layout.payloadLen
  rw [layout.payloadLen_length] at h
  exact h

@[simp]
theorem header_length : layout.header.length = headerBytes := by
  simp [header, headerBytes, layout.magic_length, layout.deployment_length,
    layout.payloadLen_length]

@[simp]
theorem bytes_length : layout.bytes.length = headerBytes + layout.body.length := by
  rw [bytes, List.length_append, header_length]

theorem exists_of_le_length {envelope : List UInt8} (h : headerBytes ≤ envelope.length) :
    ∃ layout : Layout, layout.bytes = envelope := by
  rw [headerBytes] at h
  obtain ⟨magic, rest, rfl, hmagic⟩ := List.exists_append_of_le_length
    (show 4 ≤ envelope.length by omega)
  rw [List.length_append, hmagic] at h
  obtain ⟨version, rest, rfl⟩ := List.exists_cons_of_length_pos (show 0 < rest.length by omega)
  rw [List.length_cons] at h
  obtain ⟨deployment, rest, rfl, hdeployment⟩ := List.exists_append_of_le_length
    (show 32 ≤ rest.length by omega)
  rw [List.length_append, hdeployment] at h
  obtain ⟨payloadLen, body, rfl, hpayloadLen⟩ := List.exists_append_of_le_length
    (show 4 ≤ rest.length by omega)
  refine ⟨⟨magic, version, deployment, payloadLen, body, hmagic, hdeployment, hpayloadLen⟩, ?_⟩
  simp [bytes, header]

theorem slice?_magic : layout.bytes.slice? 0 4 = some layout.magic := by
  rw [bytes, header, List.append_assoc]
  exact List.slice?_append_left layout.magic_length

theorem getElem?_version : layout.bytes[4]? = some layout.version := by
  rw [bytes, header, List.append_assoc, List.getElem?_append_right (by rw [layout.magic_length]),
    layout.magic_length]
  rfl

theorem slice?_deployment : layout.bytes.slice? 5 37 = some layout.deployment := by
  have hsplit : layout.bytes = (layout.magic ++ [layout.version]) ++ (layout.deployment ++
      (layout.payloadLen ++ layout.body)) := by
    simp [bytes, header]
  rw [hsplit]
  exact List.slice?_append (by simp [layout.magic_length]) (by rw [layout.deployment_length])

theorem slice?_payloadLen : layout.bytes.slice? 37 41 = some layout.payloadLen := by
  have hsplit : layout.bytes = (layout.magic ++ ([layout.version] ++ layout.deployment)) ++
      (layout.payloadLen ++ layout.body) := by
    simp [bytes, header]
  rw [hsplit]
  exact List.slice?_append (by simp [layout.magic_length, layout.deployment_length])
    (by rw [layout.payloadLen_length])

end Layout

section Exact

variable [Primitives] [KeyedHash] {walletSeed : List UInt8} {deploymentId : Bytes32}

/-! ### Keys and tags -/

/-- Deriving the key does not panic: the seed length is all that can be wrong. -/
theorem exists_checkpointKey (walletSeed : List UInt8) (deploymentId : Bytes32) :
    ∃ key, checkpointKey walletSeed deploymentId = some key := by
  rw [checkpointKey, deriveNamesMaster]
  split
  · exact ⟨_, rfl⟩
  · exact ⟨_, rfl⟩
  · rename_i e hne h
    split at h
    · exact absurd (Except.error.inj h).symm hne
    · exact absurd h (by simp)

theorem exists_checkpointKey_of_length (h : walletSeed.length = walletSeedBytes) :
    ∃ key, checkpointKey walletSeed deploymentId = some (.ok key) := by
  rw [checkpointKey, deriveNamesMaster, if_neg (not_not.2 h)]
  exact ⟨_, rfl⟩

omit [Primitives] in
@[simp]
theorem checkpointTag_length (key : Bytes32) (covered : List UInt8) :
    (checkpointTag key covered).length = tagBytes := by
  rw [checkpointTag, Vector.length_toList, tagBytes]

/-! ### Opening an envelope in parts -/

namespace Layout

variable (layout : Layout) (deploymentId) (key : Except CheckpointError Bytes32)

/-- What is decided about an envelope in parts. -/
def verdict : Except CheckpointError (List UInt8) :=
  if layout.magic ≠ checkpointMagic then .error .invalidEncoding
  else if layout.version ≠ formatVersion then .error .unsupportedFormat
  else if layout.deployment ≠ deploymentId.toList then .error .deploymentMismatch
  else if layout.body.length ≠ layout.announced + tagBytes then .error .invalidEncoding
  else
    match key with
    | .error e => .error e
    | .ok key =>
      let payload := layout.body.take layout.announced
      if checkpointTag key (layout.header ++ payload) ≠ layout.body.drop layout.announced then
        .error .authenticationFailed
      else .ok payload

/-- An envelope that has room for a header and a tag is opened without a panic. -/
theorem openCheckpoint_bytes {key : Except CheckpointError Bytes32}
    (hkey : checkpointKey walletSeed deploymentId = some key)
    (hbody : tagBytes ≤ layout.body.length) :
    openCheckpoint walletSeed deploymentId layout.bytes =
      some (layout.verdict deploymentId key) := by
  have hsum : headerBytes + layout.announced < 2 ^ 64 ∧
      headerBytes + layout.announced + tagBytes < 2 ^ 64 := by
    have h := layout.announced_lt
    rw [headerBytes, tagBytes]
    omega
  rw [openCheckpoint, if_neg (by rw [bytes_length]; omega), slice?_magic, Option.bind_eq_bind,
    Option.bind_some, verdict.eq_def]
  split
  · rfl
  rw [getElem?_version, Option.bind_eq_bind, Option.bind_some]
  split
  · rfl
  rw [slice?_deployment, Option.bind_eq_bind, Option.bind_some]
  split
  · rfl
  rw [slice?_payloadLen, Option.bind_eq_bind, Option.bind_some]
  show (match (usizeCheckedAdd headerBytes layout.announced).bind (usizeCheckedAdd · tagBytes) with
    | none => _
    | some expectedLen => _) = _
  rw [usizeCheckedAdd_eq_some hsum.1, Option.bind_some, usizeCheckedAdd_eq_some hsum.2]
  dsimp only
  by_cases hlength : layout.body.length = layout.announced + tagBytes
  swap
  · rw [if_pos (by rw [bytes_length]; omega), if_pos hlength]
    rfl
  -- the body is a payload of the announced length and a tag
  obtain ⟨payload, tag, hbytes, hpayload⟩ := List.exists_append_of_le_length
    (show layout.announced ≤ layout.body.length by omega)
  have hstart : usizeCheckedAdd headerBytes (beNat layout.payloadLen) =
      some (headerBytes + layout.announced) :=
    usizeCheckedAdd_eq_some hsum.1
  rw [if_neg (by rw [bytes_length]; omega), if_neg (not_not.2 hlength), hstart,
    Option.bind_some, hkey, Option.bind_some]
  rcases key with e | key
  · rfl
  have hcovered : layout.bytes.slice? 0 (headerBytes + layout.announced) =
      some (layout.header ++ payload) := by
    rw [bytes, hbytes, ← List.append_assoc]
    exact List.slice?_append_left (by rw [List.length_append, header_length, hpayload])
  have htag : layout.bytes.slice? (headerBytes + layout.announced) layout.bytes.length =
      some tag := by
    rw [bytes, hbytes, ← List.append_assoc]
    exact List.slice?_append_right (by rw [List.length_append, header_length, hpayload])
      (by simp [hpayload, Nat.add_assoc])
  have hslice : layout.bytes.slice? headerBytes (headerBytes + layout.announced) =
    some payload := by
    rw [bytes, hbytes]
    exact List.slice?_append (by rw [header_length]) (by rw [hpayload])
  dsimp only
  rw [hcovered, htag, hslice, hbytes, List.take_left' hpayload, List.drop_left' hpayload]
  simp only [Option.bind_some]
  split
  · rfl
  · rfl

omit [Primitives] in
/-- An envelope in parts opens to a payload when the parts are those of its seal. -/
theorem verdict_eq_ok_iff {key : Except CheckpointError Bytes32} {payload : List UInt8} :
    layout.verdict deploymentId key = .ok payload ↔
      layout.magic = checkpointMagic ∧ layout.version = formatVersion ∧
        layout.deployment = deploymentId.toList ∧ payload.length = layout.announced ∧
        ∃ k, key = .ok k ∧
          layout.body = payload ++ checkpointTag k (layout.header ++ payload) := by
  rw [verdict.eq_def]
  constructor
  · intro h
    split at h
    · exact absurd h (by simp)
    rename_i hmagic
    split at h
    · exact absurd h (by simp)
    rename_i hversion
    split at h
    · exact absurd h (by simp)
    rename_i hdeployment
    split at h
    · exact absurd h (by simp)
    rename_i hlength
    rcases key with e | key
    · exact absurd h (by simp)
    dsimp only at h
    split at h
    · exact absurd h (by simp)
    rename_i htag
    obtain rfl := Except.ok.inj h
    refine ⟨not_not.1 hmagic, not_not.1 hversion, not_not.1 hdeployment, ?_, key, rfl, ?_⟩
    · rw [List.length_take]
      omega
    · rw [not_not.1 htag, List.take_append_drop]
  · rintro ⟨hmagic, hversion, hdeployment, hlength, k, rfl, hbody⟩
    have hroom : layout.body.length = layout.announced + tagBytes := by
      rw [hbody, List.length_append, checkpointTag_length, hlength]
    rw [if_neg (not_not.2 hmagic), if_neg (not_not.2 hversion), if_neg (not_not.2 hdeployment),
      if_neg (not_not.2 hroom)]
    dsimp only
    rw [hbody, List.take_left' hlength, List.drop_left' hlength, if_neg (not_not.2 rfl)]

end Layout

/-! ### Sealing and opening -/

/-- What a seal is made of. -/
theorem sealCheckpoint_eq_ok_iff {payload envelope : List UInt8} :
    sealCheckpoint walletSeed deploymentId payload = some (.ok envelope) ↔
      ∃ payloadLen key, payloadLen.val = payload.length ∧
        checkpointKey walletSeed deploymentId = some (.ok key) ∧
        envelope = checkpointHeader deploymentId payloadLen ++ payload ++
          checkpointTag key (checkpointHeader deploymentId payloadLen ++ payload) := by
  obtain ⟨key, hkey⟩ := exists_checkpointKey walletSeed deploymentId
  rw [sealCheckpoint]
  constructor
  · intro h
    split at h
    · exact absurd h (by simp)
    rename_i payloadLen hlength
    rw [hkey, Option.bind_eq_bind, Option.bind_some] at h
    rcases key with e | key
    · exact absurd h (by simp)
    exact ⟨payloadLen, key, U32.ofUsize_eq_some_iff.1 hlength, hkey,
      (Except.ok.inj (Option.some.inj h)).symm⟩
  · rintro ⟨payloadLen, k, hlength, hk, rfl⟩
    rw [U32.ofUsize_eq_some_iff.2 hlength]
    dsimp only
    rw [hk]
    rfl

/-- The parts of a sealed payload. -/
def sealedLayout (deploymentId : Bytes32) (payloadLen : U32) (key : Bytes32)
    (payload : List UInt8) :
    Layout where
  magic := checkpointMagic
  version := formatVersion
  deployment := deploymentId.toList
  payloadLen := encodeU32 payloadLen
  body := payload ++ checkpointTag key (checkpointHeader deploymentId payloadLen ++ payload)
  magic_length := by decide
  deployment_length := by simp
  payloadLen_length := by simp [encodeU32]

omit [Primitives] [KeyedHash] in
/-- The header of an envelope with the right parts is that of the seal. -/
theorem Layout.header_eq {layout : Layout} {payloadLen : U32}
    (hmagic : layout.magic = checkpointMagic)
    (hversion : layout.version = formatVersion)
    (hdeployment : layout.deployment = deploymentId.toList)
    (hlength : payloadLen.val = layout.announced) :
    layout.header = checkpointHeader deploymentId payloadLen := by
  have hencoded : encodeU32 payloadLen = layout.payloadLen := by
    have h := beBytes_beNat layout.payloadLen
    rw [layout.payloadLen_length] at h
    rw [encodeU32, hlength, announced, h]
  rw [header, checkpointHeader, hmagic, hversion, hdeployment, hencoded]

/-- **Opening inverts sealing, both ways.** -/
theorem openCheckpoint_eq_ok_iff {payload envelope : List UInt8} :
    openCheckpoint walletSeed deploymentId envelope = some (.ok payload) ↔
      sealCheckpoint walletSeed deploymentId payload = some (.ok envelope) := by
  rw [sealCheckpoint_eq_ok_iff]
  constructor
  · intro h
    by_cases hroom : envelope.length < headerBytes + tagBytes
    · rw [openCheckpoint, if_pos hroom] at h
      exact absurd h (by simp)
    obtain ⟨layout, rfl⟩ := Layout.exists_of_le_length (show headerBytes ≤ envelope.length by omega)
    rw [Layout.bytes_length] at hroom
    obtain ⟨key, hkey⟩ := exists_checkpointKey walletSeed deploymentId
    rw [layout.openCheckpoint_bytes deploymentId hkey (by omega), Option.some_inj,
      Layout.verdict_eq_ok_iff] at h
    obtain ⟨hmagic, hversion, hdeployment, hlength, k, rfl, hbody⟩ := h
    refine ⟨⟨layout.announced, layout.announced_lt⟩, k, hlength.symm, hkey, ?_⟩
    rw [← Layout.header_eq hmagic hversion hdeployment rfl, Layout.bytes, hbody, List.append_assoc]
  · rintro ⟨payloadLen, key, hlength, hkey, rfl⟩
    have hbytes : (sealedLayout deploymentId payloadLen key payload).bytes =
        checkpointHeader deploymentId payloadLen ++ payload ++
          checkpointTag key (checkpointHeader deploymentId payloadLen ++ payload) :=
      (List.append_assoc _ _ _).symm
    have hannounced : payloadLen.val =
      (sealedLayout deploymentId payloadLen key payload).announced :=
      (beNat_beBytes payloadLen.isLt).symm
    have hbody : tagBytes ≤ (sealedLayout deploymentId payloadLen key payload).body.length := by
      simp [sealedLayout]
    rw [← hbytes, Layout.openCheckpoint_bytes _ _ hkey hbody, Option.some_inj,
      Layout.verdict_eq_ok_iff]
    exact ⟨rfl, rfl, rfl, by rw [← hannounced, hlength], key, rfl, rfl⟩

/-- Opening does not panic, whatever the bytes are. -/
theorem openCheckpoint_ne_none (envelope : List UInt8) :
    openCheckpoint walletSeed deploymentId envelope ≠ none := by
  by_cases hroom : envelope.length < headerBytes + tagBytes
  · rw [openCheckpoint, if_pos hroom]
    exact Option.some_ne_none _
  · obtain ⟨layout, rfl⟩ := Layout.exists_of_le_length (show headerBytes ≤ envelope.length by omega)
    rw [Layout.bytes_length] at hroom
    obtain ⟨key, hkey⟩ := exists_checkpointKey walletSeed deploymentId
    rw [layout.openCheckpoint_bytes deploymentId hkey (by omega)]
    exact Option.some_ne_none _

/-- **The checkpoint envelope is exact.** A payload that fits is sealed, and its seal is the one
envelope that opens to it. Opening does not panic on any bytes, and what it accepts is a seal; so a
second accepted envelope carries the tag of another header and payload. -/
theorem checkpoint_envelope_exact (walletSeed : List UInt8) (deploymentId : Bytes32) :
    (∀ payload, walletSeed.length = 64 → payload.length ≤ 2 ^ 32 - 1 →
      ∃ envelope, sealCheckpoint walletSeed deploymentId payload = some (.ok envelope) ∧
        openCheckpoint walletSeed deploymentId envelope = some (.ok payload) ∧
        ∀ other, openCheckpoint walletSeed deploymentId other = some (.ok payload) →
          other = envelope) ∧
    ∀ envelope, openCheckpoint walletSeed deploymentId envelope ≠ none ∧
      ∀ payload, openCheckpoint walletSeed deploymentId envelope = some (.ok payload) →
        sealCheckpoint walletSeed deploymentId payload = some (.ok envelope) ∧
        ∀ other payload', openCheckpoint walletSeed deploymentId other = some (.ok payload') →
          other ≠ envelope →
          ∃ key payloadLen payloadLen', checkpointKey walletSeed deploymentId = some (.ok key) ∧
            envelope = checkpointHeader deploymentId payloadLen ++ payload ++
              checkpointTag key (checkpointHeader deploymentId payloadLen ++ payload) ∧
            other = checkpointHeader deploymentId payloadLen' ++ payload' ++
              checkpointTag key (checkpointHeader deploymentId payloadLen' ++ payload') ∧
            checkpointHeader deploymentId payloadLen' ++ payload' ≠
              checkpointHeader deploymentId payloadLen ++ payload := by
  refine ⟨fun payload hseed hpayload ↦ ?_, fun envelope ↦ ⟨openCheckpoint_ne_none envelope,
    fun payload hopen ↦ ⟨openCheckpoint_eq_ok_iff.1 hopen, fun other payload' hother hne ↦ ?_⟩⟩⟩
  · obtain ⟨key, hkey⟩ : ∃ key, checkpointKey walletSeed deploymentId = some (.ok key) :=
      exists_checkpointKey_of_length hseed
    have hseal := sealCheckpoint_eq_ok_iff.2 ⟨⟨payload.length, by omega⟩, key, rfl, hkey, rfl⟩
    refine ⟨_, hseal, openCheckpoint_eq_ok_iff.2 hseal, fun other hother ↦ ?_⟩
    have hsame := hseal.symm.trans (openCheckpoint_eq_ok_iff.1 hother)
    exact (Except.ok.inj (Option.some.inj hsame)).symm
  · obtain ⟨payloadLen, key, hlength, hkey, henvelope⟩ :=
      sealCheckpoint_eq_ok_iff.1 (openCheckpoint_eq_ok_iff.1 hopen)
    obtain ⟨payloadLen', key', hlength', hkey', hother'⟩ :=
      sealCheckpoint_eq_ok_iff.1 (openCheckpoint_eq_ok_iff.1 hother)
    obtain rfl : key = key' := Except.ok.inj (Option.some.inj (hkey.symm.trans hkey'))
    refine ⟨key, payloadLen, payloadLen', hkey, henvelope, hother', fun hcovered ↦ hne ?_⟩
    rw [hother', henvelope, hcovered]

end Exact

namespace Sample

/-- A payload is sealed and opened, and the sum does not tell the order of its bytes. -/
theorem checkpoint_envelope_exact_swap :
    ∃ envelope other,
      openCheckpoint walletSeed (Vector.replicate 32 9) envelope = some (.ok [1, 2]) ∧
      openCheckpoint walletSeed (Vector.replicate 32 9) other = some (.ok [2, 1]) ∧
      other ≠ envelope ∧
      openCheckpoint walletSeed (Vector.replicate 32 9) (0 :: envelope) ≠ none ∧
      ∃ key payloadLen payloadLen',
        checkpointKey walletSeed (Vector.replicate 32 9) = some (.ok key) ∧
        envelope = checkpointHeader (Vector.replicate 32 9) payloadLen ++ [1, 2] ++
          checkpointTag key (checkpointHeader (Vector.replicate 32 9) payloadLen ++ [1, 2]) ∧
        other = checkpointHeader (Vector.replicate 32 9) payloadLen' ++ [2, 1] ++
          checkpointTag key (checkpointHeader (Vector.replicate 32 9) payloadLen' ++ [2, 1]) ∧
        checkpointHeader (Vector.replicate 32 9) payloadLen' ++ [2, 1] ≠
          checkpointHeader (Vector.replicate 32 9) payloadLen ++ [1, 2] := by
  obtain ⟨hround, hexact⟩ := checkpoint_envelope_exact walletSeed (Vector.replicate 32 9)
  obtain ⟨envelope, -, hopen, hunique⟩ := hround [1, 2] (by decide) (by decide)
  obtain ⟨other, -, hother, -⟩ := hround [2, 1] (by decide) (by decide)
  have hne : other ≠ envelope := by
    rintro rfl
    exact absurd (hopen.symm.trans hother) (by simp)
  exact ⟨envelope, other, hopen, hother, hne, (hexact _).1,
    ((hexact envelope).2 _ hopen).2 other _ hother hne⟩

end Sample

end CoppiceNames
