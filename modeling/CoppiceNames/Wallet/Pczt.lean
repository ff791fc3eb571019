import CoppiceNames.Library.Assignment
import CoppiceNames.Library.Checked
import CoppiceNames.Library.Hex
import CoppiceNames.Library.Loops
import CoppiceNames.Protocol.Values

/-!
# PCZTs of Names operations

The Ironwood bundle of a PCZT as `builder.rs` sees it, the structural checks that every step
repeats, and the roles of the PCZT crate. The roles are not code of this repository: they are
parameters, and what is relied on is that they change the listed entries and nothing else
(`UpdatesListed`, `SignsListed`).
-/

namespace CoppiceNames

/-! ### Errors -/

/-- A step that fails reports a message; an index outside of a list panics. -/
inductive BuilderError
  | failed (message : String)
  | panicked
  deriving DecidableEq

/-- `ensure!`. -/
def BuilderError.ensure (holds : Prop) [Decidable holds] (message : String) :
    Except BuilderError Unit :=
  if holds then .ok () else .error (.failed message)

/-- An error of a role, under the context of the step. -/
def BuilderError.during {A : Type} (context : String) (result : Except String A) :
    Except BuilderError A :=
  result.mapError fun text ↦ .failed (context ++ text)

/-- The `02x?` text of a byte string. -/
def debugHex (bytes : Bytes32) : String :=
  "[" ++ ", ".intercalate (bytes.toList.map fun b ↦ String.ofList (hexByte b)) ++ "]"

/-! ### The bundle -/

/-- `orchard::tree::MerklePath`. -/
structure MerklePath where
  position : U32
  authPath : Vector PallasBase 32
  deriving DecidableEq

/-- A witness as a PCZT stores it: the position and the encoded path. -/
abbrev StoredWitness := U32 × Vector Bytes32 32

/-- The encoding of a path. -/
def MerklePath.stored (path : MerklePath) : StoredWitness :=
  (path.position, path.authPath.map PallasBase.toRepr)

/-- An Ironwood action of a PCZT. -/
structure PcztAction where
  nullifier : Bytes32
  cmx : Option Bytes32
  witness : Option StoredWitness
  spendAuthSig : Option (Vector UInt8 64)
  deriving DecidableEq

/-- `pczt::Pczt`, as far as its Ironwood bundle goes. -/
structure Pczt where
  actions : List PcztAction
  valueSum : ℕ × Bool
  anchor : Option Bytes32
  zkproof : Option (List UInt8)
  deriving DecidableEq

/-- The metadata that every step passes on. -/
structure PcztMetadata where
  designatedActionIndex : U32
  designatedNullifier : Bytes32
  designatedCommitment : Bytes32
  actionCount : ℕ
  realSpendCount : ℕ
  requestedOutputCount : ℕ
  carrierOutputCount : ℕ
  changeOutputCount : ℕ
  ironwoodValueBalance : Int64

/-- The nullifier and the commitment of an action. -/
def PcztAction.pair (action : PcztAction) : Bytes32 × Option Bytes32 :=
  (action.nullifier, action.cmx)

/-- `embedded_action_layout`. -/
def embeddedActionLayout (pczt : Pczt) : Except BuilderError (List (Bytes32 × Bytes32)) :=
  pczt.actions.mapM fun action ↦
    match action.cmx with
    | none => .error (.failed "embedded Ironwood action is missing its commitment")
    | some commitment => .ok (action.nullifier, commitment)

/-- `value_sum_parts`. -/
def valueSumParts (valueBalance : Int64) : Except BuilderError (ℕ × Bool) :=
  if valueBalance.toInt < 0 then
    if valueBalance = Int64.minValue then
      .error (.failed "negative Ironwood value balance overflow")
    else .ok (valueBalance.toInt.natAbs, true)
  else .ok (valueBalance.toInt.toNat, false)

/-- `verify_embedded_designated_action`. -/
def verifyEmbeddedDesignatedAction (pczt : Pczt) (actionIndex : U32)
    (expectedNullifier expectedCommitment : Bytes32) : Except BuilderError Unit :=
  match pczt.actions[actionIndex.val]? with
  | none => .error (.failed "embedded designated action index is outside the Ironwood bundle")
  | some action => do
    BuilderError.ensure (action.nullifier = expectedNullifier)
      "embedded designated action nullifier mismatch"
    match action.cmx with
    | none => .error (.failed "embedded designated action is missing its commitment")
    | some commitment =>
      BuilderError.ensure (commitment = expectedCommitment)
        "embedded designated action commitment mismatch"
      let matching := pczt.actions.filter fun action ↦
        action.nullifier = expectedNullifier ∧ action.cmx = some expectedCommitment
      BuilderError.ensure (matching.length = 1) "embedded designated NF/CMX pair is not unique"

/-- `pczt.ironwood().actions()[index]`. -/
def Pczt.action (pczt : Pczt) (index : ℕ) : Except BuilderError PcztAction :=
  match pczt.actions[index]? with
  | none => .error .panicked
  | some action => .ok action

/-! ### The checks -/

namespace BuilderError

variable {A : Type} {holds : Prop} [Decidable holds] {message : String}

theorem ensure_eq_ok_iff {u : Unit} : ensure holds message = .ok u ↔ holds := by
  rw [ensure]
  split
  · rename_i h
    exact iff_of_true rfl h
  · rename_i h
    exact iff_of_false (by simp) h

/-- A step goes on when its check holds. -/
theorem ensure_bind_eq_ok_iff {f : Unit → Except BuilderError A} {a : A} :
    (ensure holds message >>= f) = .ok a ↔ holds ∧ f () = .ok a := by
  rw [Except.bind_eq_ok_iff]
  simp only [ensure_eq_ok_iff, exists_and_left]
  exact and_congr_right fun _ ↦ ⟨fun ⟨_, h⟩ ↦ h, fun h ↦ ⟨(), h⟩⟩

theorem during_eq_ok_iff {context : String} {result : Except String A} {a : A} :
    during context result = .ok a ↔ result = .ok a :=
  Except.mapError_eq_ok_iff

end BuilderError

variable {pczt pczt' : Pczt}

theorem Pczt.action_eq_ok_iff {index : ℕ} {action : PcztAction} :
    pczt.action index = .ok action ↔ pczt.actions[index]? = some action := by
  rw [Pczt.action]
  split
  · rename_i hnone
    simp [hnone]
  · rename_i found hfound
    rw [hfound, Except.ok.injEq, Option.some_inj]

/-- Actions with a commitment have a layout. -/
theorem exists_embeddedActionLayout
    (hcommitments : ∀ action ∈ pczt.actions, action.cmx.isSome = true) :
    ∃ layout, embeddedActionLayout pczt = .ok layout := by
  rw [embeddedActionLayout, Except.exists_mapM_eq_ok_iff]
  intro action haction
  obtain ⟨commitment, hcommitment⟩ := Option.isSome_iff_exists.1 (hcommitments action haction)
  rw [hcommitment]
  exact ⟨_, rfl⟩

/-- The layout is read off the pairs. -/
theorem embeddedActionLayout_congr
    (h : pczt.actions.map PcztAction.pair = pczt'.actions.map PcztAction.pair) :
    embeddedActionLayout pczt = embeddedActionLayout pczt' := by
  have hlayout : ∀ pczt : Pczt, embeddedActionLayout pczt =
      (pczt.actions.map PcztAction.pair).mapM fun pair ↦
        match pair.2 with
        | none => .error (.failed "embedded Ironwood action is missing its commitment")
        | some commitment => .ok (pair.1, commitment) := by
    intro pczt
    rw [List.mapM_map]
    rfl
  rw [hlayout, hlayout, h]

/-- The designated action is found in the pairs. -/
theorem verifyEmbeddedDesignatedAction_congr
    (h : pczt.actions.map PcztAction.pair = pczt'.actions.map PcztAction.pair) (actionIndex : U32)
    (nullifier commitment : Bytes32) :
    verifyEmbeddedDesignatedAction pczt actionIndex nullifier commitment =
      verifyEmbeddedDesignatedAction pczt' actionIndex nullifier commitment := by
  have hat : pczt.actions[actionIndex.val]?.map PcztAction.pair =
      pczt'.actions[actionIndex.val]?.map PcztAction.pair := by
    rw [← List.getElem?_map, ← List.getElem?_map, h]
  have hcount : ∀ pczt : Pczt, (pczt.actions.filter fun action ↦
      action.nullifier = nullifier ∧ action.cmx = some commitment).length =
        (pczt.actions.map PcztAction.pair).countP fun pair ↦
          pair.1 = nullifier ∧ pair.2 = some commitment := by
    intro pczt
    rw [List.countP_map, List.countP_eq_length_filter]
    rfl
  rw [verifyEmbeddedDesignatedAction, verifyEmbeddedDesignatedAction]
  rcases haction : pczt.actions[actionIndex.val]? with - | action
  · rw [haction, Option.map_none, eq_comm, Option.map_eq_none_iff] at hat
    rw [hat]
  · rw [haction, Option.map_some, eq_comm, Option.map_eq_some_iff] at hat
    obtain ⟨action', haction', hpair⟩ := hat
    obtain ⟨hnullifier, hcmx⟩ := Prod.mk.inj hpair
    rw [haction']
    simp only [hcount, h, hnullifier, hcmx]

/-! ### Roles -/

/-- The Updater and the Signer of the PCZT crate. An error is its debug text. -/
class Roles where
  SpendAuthorizingKey : Type
  Signer : Type
  /-- `Updater::set_ironwood_anchor`. -/
  setIronwoodAnchor : Pczt → PallasBase → Except String Pczt
  /-- `Updater::set_ironwood_spend_witnesses`. -/
  setIronwoodSpendWitnesses : Pczt → List (ℕ × MerklePath) → Except String Pczt
  /-- `Signer::new`. -/
  newSigner : Pczt → Except String Signer
  /-- `Signer::sign_ironwood`. -/
  signIronwood : Signer → ℕ → SpendAuthorizingKey → Except String Signer
  /-- `Signer::finish`. -/
  finish : Signer → Pczt

/-- A witness is stored in an action. -/
def PcztAction.setWitness (path : MerklePath) (action : PcztAction) : PcztAction :=
  { action with witness := some path.stored }

/-- A signature is stored in an action. -/
def PcztAction.setSignature (signature : Vector UInt8 64) (action : PcztAction) : PcztAction :=
  { action with spendAuthSig := some signature }

section Roles

variable [Roles]

/-- On a PCZT the Updater installs an anchor and, at distinct actions without a witness, the listed
witnesses. It changes nothing else. -/
structure UpdatesListed (pczt : Pczt) (anchor : PallasBase) : Prop where
  installs_anchor :
    Roles.setIronwoodAnchor pczt anchor = .ok { pczt with anchor := some anchor.toRepr }
  installs_witnesses : ∀ targets : List (ℕ × MerklePath), (targets.map Prod.fst).Nodup →
    (∀ target ∈ targets, ∃ action, pczt.actions[target.1]? = some action ∧ action.witness = none) →
    ∃ actions, Roles.setIronwoodSpendWitnesses { pczt with anchor := some anchor.toRepr } targets =
        .ok { pczt with anchor := some anchor.toRepr, actions := actions } ∧
      Writes PcztAction.setWitness targets pczt.actions actions

/-- The signers that signing reaches from the one that is created for a PCZT. -/
inductive SignerOf (pczt : Pczt) : Roles.Signer → Prop
  | new {signer : Roles.Signer} (h : Roles.newSigner pczt = .ok signer) : SignerOf pczt signer
  | sign {signer next : Roles.Signer} {index : ℕ} {ask : Roles.SpendAuthorizingKey}
      (hsigner : SignerOf pczt signer) (h : Roles.signIronwood signer index ask = .ok next) :
      SignerOf pczt next

/-- A signer that is created for a PCZT signs deterministically: what it writes into an action under
a key is decided by the PCZT, whatever it has signed before. It changes nothing else. -/
structure SignsListed (pczt : Pczt)
    (signature : ℕ → Roles.SpendAuthorizingKey → Option (Vector UInt8 64)) : Prop where
  created : ∀ signer, Roles.newSigner pczt = .ok signer → Roles.finish signer = pczt
  signs : ∀ signer index ask sig, SignerOf pczt signer → index < pczt.actions.length →
    signature index ask = some sig →
    ∃ next actions, Roles.signIronwood signer index ask = .ok next ∧
      Roles.finish next = { Roles.finish signer with actions := actions } ∧
      Writes PcztAction.setSignature [(index, sig)] (Roles.finish signer).actions actions
  refuses : ∀ signer index ask, SignerOf pczt signer → signature index ask = none →
    ∃ e, Roles.signIronwood signer index ask = .error e

end Roles

end CoppiceNames
