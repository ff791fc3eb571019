import CoppiceNames.Library.Cursor
import CoppiceNames.Protocol.CodecCorrectness

/-!
# The independent vector consumer

`scripts/verify-protocol-vectors.py` reads the operations of the protocol vectors with a codec of
its own, written against slices of the raw bytes. A slice beyond the end is shorter and no error,
and an integer may be made of fewer bytes than its width; what keeps a truncated operation out is
the length of the proof at its end, which therefore has to be positive.

The parser accepts exactly the encodings of the dictionaries that pass its assertions
(`parseOperation_eq_some_iff`). It does not check the address beyond its prefix or the nullifier at
all. Against `decode` this is the whole difference, apart from names with the suffix `.zec`, which
only `decode` accepts (`independent_codec_agrees`).

A failed assertion and any other exception is `none` here.
-/

namespace CoppiceNames

open Reader

/-! ### The script -/

/-- The dictionary of a REVEAL or a REFRESH, without its proof. -/
structure VectorFields where
  tag : UInt8
  name : List UInt8
  height : ℕ
  txIndex : ℕ
  txid : List UInt8
  predecessorAction : Option ℕ
  ua : List UInt8
  actionIndex : ℕ
  futureNf : List UInt8

/-- What `parse_operation` returns. -/
inductive VectorOperation
  | commit (commitment : List UInt8)
  | named (fields : VectorFields) (proof : List UInt8)

/-- The bytes that the script asserts of a name. -/
def isVectorNameByte (byte : UInt8) : Bool :=
  (97 ≤ byte && byte ≤ 122) || (48 ≤ byte && byte ≤ 57) || byte == 45

/-- The name in `parse_operation`. The first byte of an empty name is an exception. -/
def parseName : Reader Unit (List UInt8) := do
  let nameLen ← bytes 1 ()
  let name ← slice (beNat nameLen)
  assert (1 ≤ beNat nameLen ∧ beNat nameLen ≤ 63) ()
  assert (name.head?.any (· ≠ 45) = true ∧ name.getLast?.any (· ≠ 45) = true) ()
  assert (name.all isVectorNameByte = true) ()
  return name

/-- The action of the predecessor in `parse_operation`. -/
def parsePredecessorAction (tag : UInt8) : Reader Unit (Option ℕ) :=
  if tag = 2 then some <$> integer 4
  else do
    assert (tag = 1) ()
    return none

/-- The address in `parse_operation`. -/
def parseUa : Reader Unit (List UInt8) := do
  let uaLen ← integer 2
  let ua ← slice uaLen
  assert (1 ≤ uaLen ∧ uaLen ≤ 1024 ∧ lit "uregtest1" <+: ua) ()
  return ua

/-- `parse_operation`, between the tag and the proof of a REVEAL or a REFRESH. -/
def parseNamed (tag : UInt8) : Reader Unit VectorFields := do
  let name ← parseName
  let height ← integer 4
  let txIndex ← integer 4
  let txid ← slice 32
  let predecessorAction ← parsePredecessorAction tag
  let ua ← parseUa
  let actionIndex ← integer 4
  let futureNf ← slice 32
  return ⟨tag, name, height, txIndex, txid, predecessorAction, ua, actionIndex, futureNf⟩

/-- `parse_operation`. -/
def parseOperation (raw : List UInt8) (revealProofBytes refreshProofBytes : ℕ) :
    Option VectorOperation :=
  match raw with
  | [] => none
  | tag :: body =>
    if tag = 0 then
      if raw.length = 33 ∧ leNat body ≠ 0 ∧ leNat body < pallasModulus then some (.commit body)
      else none
    else
      match parseNamed tag body with
      | .error _ => none
      | .ok (fields, proof) =>
        if proof.length = if tag = 1 then revealProofBytes else refreshProofBytes then
          some (.named fields proof)
        else none

/-- `int.to_bytes`, big-endian. -/
def toBytes (width value : ℕ) : Option (List UInt8) :=
  if value < 256 ^ width then some (beBytes width value) else none

/-- `encode_operation`. -/
def encodeOperation : VectorOperation → Option (List UInt8)
  | .commit commitment => some (0 :: commitment)
  | .named fields proof => do
    let nameLen ← toBytes 1 fields.name.length
    let height ← toBytes 4 fields.height
    let txIndex ← toBytes 4 fields.txIndex
    let predecessor ← if fields.tag = 2 then fields.predecessorAction.bind (toBytes 4) else some []
    let uaLen ← toBytes 2 fields.ua.length
    let actionIndex ← toBytes 4 fields.actionIndex
    return fields.tag :: (nameLen ++ (fields.name ++ (height ++ (txIndex ++ (fields.txid ++
      (predecessor ++ (uaLen ++ (fields.ua ++ (actionIndex ++ (fields.futureNf ++ proof))))))))))

/-! ### What the parser accepts -/

/-- The bytes of a predecessor, where there is one. -/
def predecessorBytes : Option ℕ → List UInt8
  | none => []
  | some action => beBytes 4 action

/-- The bytes between the tag and the proof. -/
def VectorFields.header (fields : VectorFields) : List UInt8 :=
  beBytes 1 fields.name.length ++ (fields.name ++ (beBytes 4 fields.height ++
    (beBytes 4 fields.txIndex ++ (fields.txid ++ (predecessorBytes fields.predecessorAction ++
      (beBytes 2 fields.ua.length ++ (fields.ua ++ (beBytes 4 fields.actionIndex ++
        fields.futureNf))))))))

/-- The assertions on a name. -/
structure VectorName (name : List UInt8) : Prop where
  length : 1 ≤ name.length ∧ name.length ≤ 63
  ends : name.head?.any (· ≠ 45) = true ∧ name.getLast?.any (· ≠ 45) = true
  all : name.all isVectorNameByte = true

/-- The assertions on an address. -/
def VectorUa (ua : List UInt8) : Prop :=
  1 ≤ ua.length ∧ ua.length ≤ 1024 ∧ lit "uregtest1" <+: ua

/-- A predecessor has an action in a REFRESH, and in a REFRESH only. -/
def VectorPredecessor (tag : UInt8) : Option ℕ → Prop
  | some action => tag = 2 ∧ action < 256 ^ 4
  | none => tag = 1

/-- The dictionary passes the assertions, and its integers have their widths. -/
structure VectorFields.Fits (fields : VectorFields) : Prop where
  name : VectorName fields.name
  height : fields.height < 256 ^ 4
  txIndex : fields.txIndex < 256 ^ 4
  txid : fields.txid.length = 32
  predecessorAction : VectorPredecessor fields.tag fields.predecessorAction
  ua : VectorUa fields.ua
  actionIndex : fields.actionIndex < 256 ^ 4
  futureNf : fields.futureNf.length = 32

theorem recognisesBefore_parseName : RecognisesBefore parseName fun name e ↦
    VectorName name ∧ e = beBytes 1 name.length ++ name := by
  refine ((Recognises.bytes 1 ()).before.bind fun nameLen ↦
    (RecognisesBefore.slice (beNat nameLen)).bind fun name ↦
    (RecognisesBefore.assert _ ()).bind fun _ ↦ (RecognisesBefore.assert _ ()).bind fun _ ↦
    (RecognisesBefore.assert _ ()).bind fun _ ↦ (Recognises.pure name).before).congr
      fun name e ↦ ?_
  constructor
  · rintro ⟨nameLen, _, _, ⟨hwidth, rfl⟩, ⟨name, _, _, ⟨hlength, rfl⟩, ⟨-, _, _, ⟨hbounds, rfl⟩,
      ⟨-, _, _, ⟨hends, rfl⟩, ⟨-, _, _, ⟨hall, rfl⟩, ⟨rfl, rfl⟩, rfl⟩, rfl⟩, rfl⟩, rfl⟩, rfl⟩
    refine ⟨⟨hlength ▸ hbounds, hends, hall⟩, ?_⟩
    rw [hlength, ← hwidth, beBytes_beNat]
    simp
  · rintro ⟨⟨hbounds, hends, hall⟩, rfl⟩
    have hlength : beNat (beBytes 1 name.length) = name.length :=
      beNat_beBytes (by omega)
    exact ⟨_, _, name, ⟨beBytes_length 1 _, rfl⟩, ⟨name, _, [], ⟨hlength.symm, rfl⟩,
      ⟨(), [], [], ⟨hlength.symm ▸ hbounds, rfl⟩, ⟨(), [], [], ⟨hends, rfl⟩, ⟨(), [], [],
        ⟨hall, rfl⟩, ⟨rfl, rfl⟩, rfl⟩, rfl⟩, rfl⟩, (List.append_nil _).symm⟩, rfl⟩

theorem recognisesBefore_parsePredecessorAction (tag : UInt8) :
    RecognisesBefore (parsePredecessorAction tag) fun predecessor e ↦
      VectorPredecessor tag predecessor ∧ e = predecessorBytes predecessor := by
  rw [parsePredecessorAction]
  split
  · rename_i htag
    refine ((RecognisesBefore.integer 4).bind fun action ↦
      (Recognises.pure (some action)).before).congr fun predecessor e ↦ ?_
    constructor
    · rintro ⟨action, _, _, ⟨hlt, rfl⟩, ⟨rfl, rfl⟩, rfl⟩
      exact ⟨⟨htag, hlt⟩, List.append_nil _⟩
    · rintro ⟨hfits, rfl⟩
      rcases predecessor with - | action
      · exact absurd (htag.symm.trans hfits) (by decide)
      · exact ⟨action, _, [], ⟨hfits.2, rfl⟩, ⟨rfl, rfl⟩, (List.append_nil _).symm⟩
  · rename_i htag
    refine ((RecognisesBefore.assert _ ()).bind fun _ ↦ (Recognises.pure none).before).congr
      fun predecessor e ↦ ?_
    constructor
    · rintro ⟨-, _, _, ⟨hone, rfl⟩, ⟨rfl, rfl⟩, rfl⟩
      exact ⟨hone, rfl⟩
    · rintro ⟨hfits, rfl⟩
      rcases predecessor with - | action
      · exact ⟨(), [], [], ⟨hfits, rfl⟩, ⟨rfl, rfl⟩, rfl⟩
      · exact absurd hfits.1 htag

theorem recognisesBefore_parseUa : RecognisesBefore parseUa fun ua e ↦
    VectorUa ua ∧ e = beBytes 2 ua.length ++ ua := by
  refine ((RecognisesBefore.integer 2).bind fun uaLen ↦
    (RecognisesBefore.slice uaLen).bind fun ua ↦ (RecognisesBefore.assert _ ()).bind fun _ ↦
    (Recognises.pure ua).before).congr fun ua e ↦ ?_
  constructor
  · rintro ⟨uaLen, _, _, ⟨hlt, rfl⟩, ⟨ua, _, _, ⟨rfl, rfl⟩, ⟨-, _, _, ⟨hfits, rfl⟩, ⟨rfl, rfl⟩,
      rfl⟩, rfl⟩, rfl⟩
    exact ⟨hfits, by simp⟩
  · rintro ⟨hfits, rfl⟩
    have hlt : ua.length < 256 ^ 2 := by
      have hle := hfits.2.1
      omega
    exact ⟨ua.length, _, ua, ⟨hlt, rfl⟩, ⟨ua, _, [], ⟨rfl, rfl⟩, ⟨(), [], [], ⟨hfits, rfl⟩,
      ⟨rfl, rfl⟩, rfl⟩, (List.append_nil _).symm⟩, rfl⟩

/-- **What the parser reads before the proof.** -/
theorem recognisesBefore_parseNamed (tag : UInt8) :
    RecognisesBefore (parseNamed tag) fun fields e ↦
      fields.Fits ∧ fields.tag = tag ∧ e = fields.header := by
  refine (recognisesBefore_parseName.bind fun name ↦ (RecognisesBefore.integer 4).bind fun height ↦
    (RecognisesBefore.integer 4).bind fun txIndex ↦ (RecognisesBefore.slice 32).bind fun txid ↦
    (recognisesBefore_parsePredecessorAction tag).bind fun predecessorAction ↦
    recognisesBefore_parseUa.bind fun ua ↦ (RecognisesBefore.integer 4).bind fun actionIndex ↦
    (RecognisesBefore.slice 32).bind fun futureNf ↦ (Recognises.pure (VectorFields.mk tag name
      height txIndex txid predecessorAction ua actionIndex futureNf)).before).congr
        fun fields e ↦ ?_
  constructor
  · rintro ⟨name, _, _, ⟨hname, rfl⟩, ⟨height, _, _, ⟨hheight, rfl⟩, ⟨txIndex, _, _,
      ⟨htxIndex, rfl⟩, ⟨txid, _, _, ⟨htxid, rfl⟩, ⟨predecessor, _, _, ⟨hpredecessor, rfl⟩,
      ⟨ua, _, _, ⟨hua, rfl⟩, ⟨actionIndex, _, _, ⟨hactionIndex, rfl⟩, ⟨futureNf, _, _,
      ⟨hfutureNf, rfl⟩, ⟨rfl, rfl⟩, rfl⟩, rfl⟩, rfl⟩, rfl⟩, rfl⟩, rfl⟩, rfl⟩, rfl⟩
    exact ⟨⟨hname, hheight, htxIndex, htxid, hpredecessor, hua, hactionIndex, hfutureNf⟩, rfl,
      by simp [VectorFields.header]⟩
  · rintro ⟨⟨hname, hheight, htxIndex, htxid, hpredecessor, hua, hactionIndex, hfutureNf⟩, rfl,
      rfl⟩
    exact ⟨_, _, _, ⟨hname, rfl⟩, ⟨_, _, _, ⟨hheight, rfl⟩, ⟨_, _, _, ⟨htxIndex, rfl⟩,
      ⟨_, _, _, ⟨htxid, rfl⟩, ⟨_, _, _, ⟨hpredecessor, rfl⟩, ⟨_, _, _, ⟨hua, rfl⟩,
        ⟨_, _, _, ⟨hactionIndex, rfl⟩, ⟨_, _, [], ⟨hfutureNf, rfl⟩, ⟨rfl, rfl⟩, rfl⟩, rfl⟩, rfl⟩,
        rfl⟩, rfl⟩, rfl⟩, rfl⟩, by simp [VectorFields.header]⟩

/-- An operation passes the assertions. -/
def VectorOperation.Fits (revealProofBytes refreshProofBytes : ℕ) : VectorOperation → Prop
  | .commit commitment => commitment.length = 32 ∧ leNat commitment ≠ 0 ∧
      leNat commitment < pallasModulus
  | .named fields proof => fields.Fits ∧
      proof.length = if fields.tag = 1 then revealProofBytes else refreshProofBytes

/-- The bytes of an operation. -/
def VectorOperation.bytes : VectorOperation → List UInt8
  | .commit commitment => 0 :: commitment
  | .named fields proof => fields.tag :: (fields.header ++ proof)

theorem VectorFields.Fits.tag {fields : VectorFields} (h : fields.Fits) :
    fields.tag = 1 ∨ fields.tag = 2 := by
  have hpredecessor := h.predecessorAction
  rcases haction : fields.predecessorAction with - | action
  · rw [haction] at hpredecessor
    exact .inl hpredecessor
  · rw [haction] at hpredecessor
    exact .inr hpredecessor.1

/-- **What the parser accepts**: the bytes of the operations that pass its assertions. -/
theorem parseOperation_eq_some_iff {raw : List UInt8} {revealProofBytes refreshProofBytes : ℕ}
    (hreveal : 0 < revealProofBytes) (hrefresh : 0 < refreshProofBytes)
    {operation : VectorOperation} :
    parseOperation raw revealProofBytes refreshProofBytes = some operation ↔
      operation.Fits revealProofBytes refreshProofBytes ∧ raw = operation.bytes := by
  rcases raw with - | ⟨tag, body⟩
  · rw [parseOperation]
    refine ⟨fun h ↦ absurd h (by simp), fun h ↦ ?_⟩
    rcases operation with commitment | ⟨fields, proof⟩
    · exact absurd h.2 (by simp [VectorOperation.bytes])
    · exact absurd h.2 (by simp [VectorOperation.bytes])
  rw [parseOperation]
  -- what follows the last slice is not empty, so every slice was complete
  have hnonempty : ∀ {tag : UInt8} {proof : List UInt8},
      (proof.length = if tag = 1 then revealProofBytes else refreshProofBytes) → proof ≠ [] := by
    rintro tag proof hlength rfl
    split at hlength
    · exact hreveal.ne hlength
    · exact hrefresh.ne hlength
  by_cases hzero : tag = 0
  · rw [if_pos hzero, hzero]
    constructor
    · intro h
      split at h
      · rename_i hfits
        obtain rfl := Option.some.inj h
        exact ⟨⟨by simpa using hfits.1, hfits.2⟩, rfl⟩
      · exact absurd h (by simp)
    · rintro ⟨hfits, hraw⟩
      rcases operation with commitment | ⟨fields, proof⟩
      · obtain rfl := (List.cons.inj hraw).2
        rw [if_pos ⟨by rw [List.length_cons, hfits.1], hfits.2⟩]
      · rcases hfits.1.tag with htag | htag
        · exact absurd ((List.cons.inj hraw).1.trans htag) (by decide)
        · exact absurd ((List.cons.inj hraw).1.trans htag) (by decide)
  · rw [if_neg hzero]
    constructor
    · intro h
      split at h
      · exact absurd h (by simp)
      rename_i fields proof hparsed
      by_cases hlength : proof.length = if tag = 1 then revealProofBytes else refreshProofBytes
      · rw [if_pos hlength] at h
        obtain rfl := Option.some.inj h
        obtain ⟨e, ⟨hfits, rfl, rfl⟩, rfl⟩ :=
          (recognisesBefore_parseNamed tag _ _ _ (hnonempty hlength)).1 hparsed
        exact ⟨⟨hfits, hlength⟩, rfl⟩
      · rw [if_neg hlength] at h
        exact absurd h (by simp)
    · rintro ⟨hfits, hraw⟩
      rcases operation with commitment | ⟨fields, proof⟩
      · exact absurd (List.cons.inj hraw).1 hzero
      · obtain ⟨rfl, rfl⟩ := List.cons.inj hraw
        rw [(recognisesBefore_parseNamed fields.tag _ _ _ (hnonempty hfits.2)).2
          ⟨_, ⟨hfits.1, rfl, rfl⟩, rfl⟩]
        exact if_pos hfits.2

theorem toBytes_of_lt {width value : ℕ} (h : value < 256 ^ width) :
    toBytes width value = some (beBytes width value) :=
  if_pos h

/-- The script's encoder writes the bytes of an operation that passes the assertions. -/
theorem encodeOperation_eq_some {revealProofBytes refreshProofBytes : ℕ}
    {operation : VectorOperation} (h : operation.Fits revealProofBytes refreshProofBytes) :
    encodeOperation operation = some operation.bytes := by
  rcases operation with commitment | ⟨fields, proof⟩
  · rfl
  obtain ⟨hname, hheight, htxIndex, -, hpredecessor, hua, hactionIndex, -⟩ := h.1
  have hnameLength : fields.name.length < 256 ^ 1 := by
    have hle := hname.length.2
    omega
  have huaLength : fields.ua.length < 256 ^ 2 := by
    have hle := hua.2.1
    omega
  rw [encodeOperation, toBytes_of_lt hnameLength, toBytes_of_lt hheight, toBytes_of_lt htxIndex,
    toBytes_of_lt huaLength, toBytes_of_lt hactionIndex]
  rcases haction : fields.predecessorAction with - | action
  · rw [haction] at hpredecessor
    have htag : fields.tag ≠ 2 := by
      rw [show fields.tag = 1 from hpredecessor]
      decide
    simp [VectorOperation.bytes, VectorFields.header, haction, predecessorBytes, htag]
  · rw [haction] at hpredecessor
    simp [VectorOperation.bytes, VectorFields.header, haction, predecessorBytes, hpredecessor.1,
      toBytes_of_lt hpredecessor.2]

/-! ### Against the decoder -/

/-- The dictionary of an operation. -/
def Operation.vector [Primitives] : Operation → VectorOperation
  | .commit commitment => .commit commitment.bytes.toList
  | .reveal op => .named ⟨1, op.name.bytes, op.commit.height, op.commit.txIndex,
      op.commit.txid.toList, none, op.ua.value.bytes, op.actionIndex,
      op.successorFutureNf.bytes.toList⟩ op.proof
  | .refresh op => .named ⟨2, op.name.bytes, op.predecessor.height, op.predecessor.txIndex,
      op.predecessor.txid.toList, some op.predecessor.actionIndex, op.ua.value.bytes,
      op.actionIndex, op.successorFutureNf.bytes.toList⟩ op.proof

/-- What the script leaves to the decoder: the address recodes to itself, and the nullifier is a
field element. -/
def VectorOperation.Canonical [Primitives] : VectorOperation → Prop
  | .commit _ => True
  | .named fields _ =>
    (∃ value : Str, value.bytes = fields.ua ∧ Primitives.recodeUa value = some value) ∧
      leNat fields.futureNf < pallasModulus

/-- The assertions on a name are the grammar of `Name::parse`. -/
theorem vectorName_iff {name : List UInt8} : VectorName name ↔ ¬ MalformedName name := by
  constructor
  · rintro ⟨hlength, ⟨hhead, hlast⟩, hall⟩ hmalformed
    rcases hmalformed with rfl | hlong | hascii | hfirst | hfinal | hbytes
    · exact absurd hlength.1 (by decide)
    · exact absurd hlength.2 (Nat.not_le_of_lt hlong)
    · refine hascii (List.all_eq_true.2 fun byte hmem ↦ ?_)
      have hbyte := List.all_eq_true.1 hall byte hmem
      rw [isVectorNameByte] at hbyte
      grind
    · rw [hfirst] at hhead
      exact absurd hhead (by decide)
    · rw [hfinal] at hlast
      exact absurd hlast (by decide)
    · exact hbytes hall
  · intro hwell
    simp only [MalformedName, not_or, not_not] at hwell
    obtain ⟨hne, hlong, -, hfirst, hfinal, hall⟩ := hwell
    refine ⟨⟨List.length_pos_of_ne_nil hne, Nat.le_of_not_lt hlong⟩, ⟨?_, ?_⟩, hall⟩
    · rcases hhead : name.head? with - | byte
      · exact absurd (List.head?_eq_none_iff.1 hhead) hne
      · rw [hhead] at hfirst
        simpa using hfirst
    · rcases hlast : name.getLast? with - | byte
      · exact absurd (List.getLast?_eq_none_iff.1 hlast) hne
      · rw [hlast] at hfinal
        simpa using hfinal

/-- The prefix that the script asserts is the prefix of regtest and the separator. -/
theorem matchesHrp_regtest {address : List UInt8} :
    Network.matchesHrp .regtest address = true ↔ lit "uregtest1" <+: address := by
  have hlit : lit "uregtest1" = lit "uregtest" ++ [49] := by decide
  rw [Network.matchesHrp, Bool.and_eq_true, List.isPrefixOf_iff_prefix, hlit, beq_iff_eq]
  constructor
  · rintro ⟨⟨rest, rfl⟩, hseparator⟩
    rw [Network.hrp, List.drop_left] at hseparator
    obtain ⟨after, rfl⟩ := List.head?_eq_some_iff.1 hseparator
    exact ⟨after, by simp [Network.hrp]⟩
  · rintro ⟨after, rfl⟩
    rw [List.append_assoc, Network.hrp, List.drop_left]
    exact ⟨List.prefix_append _ _, rfl⟩

/-- The checks of an address are the assertions and that it recodes to itself. -/
theorem checkUa_regtest_iff [Primitives] {value : Str} :
    checkUa .regtest value = .ok () ↔
      VectorUa value.bytes ∧ Primitives.recodeUa value = some value := by
  rw [checkUa, VectorUa, ← matchesHrp_regtest]
  split
  · rename_i hlong
    refine ⟨fun h ↦ absurd h (by simp), fun h ↦ ?_⟩
    rcases hlong with hempty | hlong
    · exact absurd h.1.1 (by rw [hempty]; decide)
    · exact absurd h.1.2.1 (Nat.not_le_of_lt hlong)
  rename_i hlength
  have hbounds : 1 ≤ value.bytes.length ∧ value.bytes.length ≤ 1024 :=
    ⟨List.length_pos_of_ne_nil fun hempty ↦ hlength (Or.inl hempty),
      Nat.le_of_not_lt fun hlong ↦ hlength (Or.inr hlong)⟩
  split
  · rename_i hregtest
    exact ⟨fun h ↦ absurd h (by simp), fun h ↦ absurd h.1.2.2 (by rw [hregtest]; decide)⟩
  rename_i hregtest
  rcases Primitives.recodeUa value with - | encoded
  · exact ⟨fun h ↦ absurd h (by simp), fun h ↦ absurd h.2 (by simp)⟩
  · by_cases hencoded : encoded = value
    · rw [hencoded]
      exact ⟨fun _ ↦ ⟨⟨hbounds.1, hbounds.2, by simpa using hregtest⟩, rfl⟩, fun _ ↦ by simp⟩
    · refine ⟨fun h ↦ absurd h (by simp [hencoded]), fun h ↦ ?_⟩
      exact absurd (Option.some.inj h.2) hencoded

theorem beBytes_one (value : ℕ) : beBytes 1 value = [UInt8.ofNat value] :=
  rfl

/-- The checks of a commitment are the assertions on it. -/
theorem nonzeroField_eq_ok_iff {bytes : Bytes32} :
    nonzeroField bytes = .ok () ↔
      leNat bytes.toList ≠ 0 ∧ leNat bytes.toList < pallasModulus := by
  rw [nonzeroField, canonicalField, PallasBase.fromRepr]
  by_cases hlt : leNat bytes.toList < pallasModulus
  · have hzero : (⟨leNat bytes.toList, hlt⟩ : PallasBase) = 0 ↔ leNat bytes.toList = 0 :=
      Fin.ext_iff
    rw [dif_pos hlt]
    by_cases hfield : leNat bytes.toList = 0
    · exact iff_of_false (by simp [hzero.2 hfield]) fun h ↦ h.1 hfield
    · exact iff_of_true (if_neg fun h ↦ hfield (hzero.1 h)) ⟨hfield, hlt⟩
  · rw [dif_neg hlt]
    exact iff_of_false (by simp) fun h ↦ hlt h.2

theorem canonicalField_toBool_iff {bytes : Bytes32} :
    (canonicalField bytes).toBool = true ↔ leNat bytes.toList < pallasModulus := by
  rw [canonicalField, PallasBase.fromRepr]
  by_cases hlt : leNat bytes.toList < pallasModulus
  · simp [hlt, Except.toBool]
  · simp [hlt, Except.toBool]

theorem exists_bytes32 {bytes : List UInt8} (h : bytes.length = 32) :
    ∃ array : Bytes32, array.toList = bytes :=
  ⟨⟨bytes.toArray, by simpa using h⟩, by simp⟩

/-- An operation that the parser accepts has no name with a suffix: the assertions exclude the
dot. -/
theorem VectorOperation.Fits.not_hasZecSuffix {revealProofBytes refreshProofBytes : ℕ}
    {operation : VectorOperation} (h : operation.Fits revealProofBytes refreshProofBytes) :
    ¬ HasZecSuffix operation.bytes := by
  rcases operation with commitment | ⟨fields, proof⟩
  · have hempty : embeddedName (0 :: commitment) = [] := by
      rcases commitment with - | ⟨x, xs⟩
      · rfl
      · simp [embeddedName]
    rw [VectorOperation.bytes, HasZecSuffix, hempty, lit_zec]
    simp
  · have hlength : fields.name.length < 256 := by
      have hle := h.1.name.length.2
      omega
    have hbytes : fields.header ++ proof = UInt8.ofNat fields.name.length :: fields.name ++
        (beBytes 4 fields.height ++ (beBytes 4 fields.txIndex ++ (fields.txid ++
          (predecessorBytes fields.predecessorAction ++ (beBytes 2 fields.ua.length ++ (fields.ua ++
            (beBytes 4 fields.actionIndex ++ (fields.futureNf ++ proof)))))))) := by
      simp [VectorFields.header, beBytes_one]
    rw [VectorOperation.bytes, HasZecSuffix, hbytes, embeddedName_cons h.1.tag hlength]
    exact (Name.mk fields.name (vectorName_iff.1 h.1.name)).not_zec_suffix

section Decoded

variable [Primitives]

theorem Operation.bytes_vector (operation : Operation) :
    operation.vector.bytes = operation.canonicalEncoding := by
  rcases operation with commitment | op | op
  · rfl
  · simp [vector, VectorOperation.bytes, VectorFields.header, canonicalEncoding, revealLayout,
      encodeName, encodeCommitRef, encodeU32, Decoder.uaField, predecessorBytes, beBytes_one]
  · simp [vector, VectorOperation.bytes, VectorFields.header, canonicalEncoding, refreshLayout,
      encodeName, encodeStateRef, encodeU32, Decoder.uaField, predecessorBytes, beBytes_one]

/-- The dictionary of an operation that `decode` can return passes the assertions. -/
theorem Operation.fits_vector {parameters : CodecParameters} {operation : Operation}
    (hua : operation.UaCanonicalFor .regtest) (hproof : operation.ProofFits parameters) :
    operation.vector.Fits parameters.revealProofBytes parameters.refreshProofBytes ∧
      operation.vector.Canonical := by
  rcases operation with commitment | op | op
  · exact ⟨⟨Vector.length_toList, nonzeroField_eq_ok_iff.1 commitment.canonical⟩, trivial⟩
  · obtain ⟨hfits, hrecodes⟩ := checkUa_regtest_iff.1 hua
    exact ⟨⟨⟨vectorName_iff.2 op.name.wellFormed, op.commit.height.isLt, op.commit.txIndex.isLt,
      Vector.length_toList, rfl, hfits, op.actionIndex.isLt, Vector.length_toList⟩, hproof⟩,
      ⟨_, rfl, hrecodes⟩, canonicalField_toBool_iff.1 op.successorFutureNf.canonical⟩
  · obtain ⟨hfits, hrecodes⟩ := checkUa_regtest_iff.1 hua
    exact ⟨⟨⟨vectorName_iff.2 op.name.wellFormed, op.predecessor.height.isLt,
      op.predecessor.txIndex.isLt, Vector.length_toList, ⟨rfl, op.predecessor.actionIndex.isLt⟩,
      hfits, op.actionIndex.isLt, Vector.length_toList⟩, hproof⟩,
      ⟨_, rfl, hrecodes⟩, canonicalField_toBool_iff.1 op.successorFutureNf.canonical⟩

/-- A dictionary that passes the assertions, and what they leave out, is the dictionary of an
operation. -/
theorem VectorOperation.exists_operation {parameters : CodecParameters}
    {operation : VectorOperation}
    (hfits : operation.Fits parameters.revealProofBytes parameters.refreshProofBytes)
    (hcanonical : operation.Canonical) :
    ∃ op : Operation, op.vector = operation ∧ op.UaCanonicalFor .regtest ∧
      op.ProofFits parameters := by
  rcases operation with commitment | ⟨fields, proof⟩
  · obtain ⟨hlength, hfield⟩ := hfits
    obtain ⟨commitment, rfl⟩ := exists_bytes32 hlength
    exact ⟨.commit ⟨commitment, nonzeroField_eq_ok_iff.2 hfield⟩, rfl, trivial, trivial⟩
  · rcases fields with
      ⟨tag, name, height, txIndex, txid, predecessorAction, ua, actionIndex, futureNf⟩
    obtain ⟨⟨hname, hheight, htxIndex, htxid, hpredecessor, hua, hactionIndex, hfutureNf⟩,
      hproof⟩ := hfits
    obtain ⟨⟨value, rfl, hrecodes⟩, hfield⟩ := hcanonical
    obtain ⟨txid, rfl⟩ := exists_bytes32 htxid
    obtain ⟨futureNf, rfl⟩ := exists_bytes32 hfutureNf
    have hcheck : checkUa .regtest value = .ok () := checkUa_regtest_iff.2 ⟨hua, hrecodes⟩
    have hcanonicalNf := canonicalField_toBool_iff.2 hfield
    rcases predecessorAction with - | action
    · obtain rfl : tag = 1 := hpredecessor
      exact ⟨.reveal ⟨⟨name, vectorName_iff.1 hname⟩, ⟨⟨height, hheight⟩, ⟨txIndex, htxIndex⟩,
        txid⟩, ⟨value, .regtest, hcheck⟩, ⟨actionIndex, hactionIndex⟩, ⟨futureNf, hcanonicalNf⟩,
        proof⟩, rfl, hcheck, hproof⟩
    · obtain ⟨rfl, haction⟩ := hpredecessor
      exact ⟨.refresh ⟨⟨name, vectorName_iff.1 hname⟩, ⟨⟨height, hheight⟩, ⟨txIndex, htxIndex⟩,
        txid, ⟨action, haction⟩⟩, ⟨value, .regtest, hcheck⟩, ⟨actionIndex, hactionIndex⟩,
        ⟨futureNf, hcanonicalNf⟩, proof⟩, rfl, hcheck, hproof⟩

theorem Accepts.fits {network : Network} {parameters : CodecParameters} {operation : Operation}
    {bytes : List UInt8} (h : Accepts network parameters operation bytes) :
    operation.UaCanonicalFor network ∧ operation.ProofFits parameters := by
  rcases operation with commitment | op | op
  · exact ⟨trivial, trivial⟩
  · exact ⟨h.1, h.2.1⟩
  · exact ⟨h.1, h.2.1⟩

/-- **The independent codec agrees with the codec.** What the parser accepts, the script's encoder
writes back, and `decode` accepts it exactly when it passes the two checks that the assertions leave
out. What `decode` accepts, the parser reads as the same fields if it is what `encode` writes, and
rejects otherwise. -/
theorem independent_codec_agrees {parameters : CodecParameters}
    (hparameters : parameters.validate = .ok ()) (hreveal : 0 < parameters.revealProofBytes)
    (hrefresh : 0 < parameters.refreshProofBytes) {raw : List UInt8}
    (hlen : raw.length ≤ Primitives.maxApplicationPayloadLen) :
    (∀ parsed, parseOperation raw parameters.revealProofBytes parameters.refreshProofBytes =
        some parsed →
      encodeOperation parsed = some raw ∧
        ((∃ operation, decode raw .regtest parameters = .ok operation) ↔ parsed.Canonical)) ∧
      ∀ operation, decode raw .regtest parameters = .ok operation →
        (encode operation parameters = .ok raw →
          parseOperation raw parameters.revealProofBytes parameters.refreshProofBytes =
            some operation.vector) ∧
        (encode operation parameters ≠ .ok raw →
          parseOperation raw parameters.revealProofBytes parameters.refreshProofBytes = none) := by
  -- without a suffix the parser reads what the decoder reads
  have hreads : ∀ {operation : Operation}, decode raw .regtest parameters = .ok operation →
      raw = operation.canonicalEncoding →
        parseOperation raw parameters.revealProofBytes parameters.refreshProofBytes =
          some operation.vector := by
    intro operation hdecode hraw
    obtain ⟨hua, hproof⟩ := (decode_eq_ok_iff.1 hdecode).2.fits
    exact (parseOperation_eq_some_iff hreveal hrefresh).2
      ⟨(Operation.fits_vector hua hproof).1, hraw.trans operation.bytes_vector.symm⟩
  have hbare : ∀ {parsed : VectorOperation} {operation : Operation},
      parseOperation raw parameters.revealProofBytes parameters.refreshProofBytes = some parsed →
        decode raw .regtest parameters = .ok operation → raw = operation.canonicalEncoding := by
    intro parsed operation hparsed hdecode
    obtain ⟨hfits, hraw⟩ := (parseOperation_eq_some_iff hreveal hrefresh).1 hparsed
    refine (accepts_cases (decode_eq_ok_iff.1 hdecode).2).1.2 ?_
    rw [hraw]
    exact hfits.not_hasZecSuffix
  constructor
  · intro parsed hparsed
    obtain ⟨hfits, hraw⟩ := (parseOperation_eq_some_iff hreveal hrefresh).1 hparsed
    refine ⟨hraw ▸ encodeOperation_eq_some hfits, ?_, fun hcanonical ↦ ?_⟩
    · rintro ⟨operation, hdecode⟩
      have hvector := hreads hdecode (hbare hparsed hdecode)
      obtain rfl : parsed = operation.vector := Option.some.inj (hparsed.symm.trans hvector)
      obtain ⟨hua, hproof⟩ := (decode_eq_ok_iff.1 hdecode).2.fits
      exact (Operation.fits_vector hua hproof).2
    · obtain ⟨operation, rfl, hua, hproof⟩ :=
        VectorOperation.exists_operation hfits hcanonical
      refine ⟨operation, decode_eq_ok_iff.2 ⟨hparameters, ?_⟩⟩
      rw [hraw, operation.bytes_vector]
      exact Operation.accepts_canonicalEncoding hua hproof
  · intro operation hdecode
    refine ⟨fun hencode ↦ hreads hdecode (encode_eq_ok_iff.1 hencode).2.2.1, fun hencode ↦ ?_⟩
    by_contra hparses
    obtain ⟨parsed, hparsed⟩ := Option.ne_none_iff_exists'.1 hparses
    have hproof := (decode_eq_ok_iff.1 hdecode).2.fits.2
    exact hencode (encode_eq_ok_iff.2 ⟨hparameters, hproof, hbare hparsed hdecode, hlen⟩)

end Decoded

namespace Sample

/-- The parser reads the REVEAL of `alice`, and rejects the same REVEAL with the name
`alice.zec`. -/
theorem independent_codec_agrees_alice :
    parseOperation (Operation.canonicalEncoding (.reveal reveal)) 3 2 =
        some (Operation.vector (.reveal reveal)) ∧
      parseOperation zecBytes 3 2 = none := by
  constructor
  · have hagrees := @independent_codec_agrees _ codecParameters rfl (by decide) (by decide)
      (Operation.canonicalEncoding (.reveal reveal)) (by decide +kernel)
    exact (hagrees.2 (.reveal reveal) (by decide +kernel)).1 (by decide +kernel)
  · have hagrees := @independent_codec_agrees _ codecParameters rfl (by decide) (by decide) zecBytes
      (by decide +kernel)
    exact (hagrees.2 (.reveal reveal) (by decide +kernel)).2 (by decide +kernel)

end Sample

end CoppiceNames
