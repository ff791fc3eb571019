import CoppiceNames.Library.Checked
import CoppiceNames.Transport.Inspection

/-!
# Publication

`publication.rs`: the envelope and the route a sender builds for one operation. The sender chooses
route, application key and proof lengths from the deployment; the receiver expects them from the
deployment it was configured with. Every operation is an operation on exactly one route, and inert
on every other one.
-/

namespace CoppiceNames

/-- `PublicationRoute`. -/
inductive PublicationRoute
  | generic
  | name (route : NameRoute)
  deriving DecidableEq

section Publication

variable [Primitives] [Core]

/-- `PreparedPublication`. -/
structure PreparedPublication where
  operation : Operation
  route : PublicationRoute
  encodedOperation : List UInt8
  encodedEnvelope : List UInt8
  frames : List (Vector UInt8 512)

/-- `PublicationError`. -/
inductive PublicationError
  | invalidDeployment (e : DeploymentError)
  | invalidName (e : ValueError)
  | invalidOperation (e : CodecError)
  | invalidEnvelope (e : Core.EnvelopeError)
  | invalidTransport (e : Core.CarrierError)

/-- The name an operation concerns in public; a COMMIT hides its name. -/
def Operation.publicName : Operation → Option Name
  | .commit _ => none
  | .reveal op => some op.name
  | .refresh op => some op.name

/-- The route of an operation. -/
def publicationRoute (deploymentId : Bytes32) (operation : Operation) :
    Except PublicationError PublicationRoute :=
  match operation.publicName with
  | none => .ok .generic
  | some name => do
    let nameId ← name.id.mapError .invalidName
    return .name (← (NameRoute.derive deploymentId nameId).mapError .invalidName)

/-- `prepare_publication`. -/
def preparePublication (operation : Operation) (deployment : DeploymentParameters) :
    Except PublicationError PreparedPublication := do
  let validated ← deployment.validate.mapError .invalidDeployment
  let deploymentId ← validated.deploymentId.mapError .invalidDeployment
  let route ← publicationRoute deploymentId operation
  let encodedOperation ← (encode operation validated.codecParameters).mapError .invalidOperation
  let envelope ← (Core.newEnvelope ⟨namesApplicationId deploymentId⟩ encodedOperation).mapError
    .invalidEnvelope
  let encodedEnvelope := Core.encodeEnvelope envelope
  let frames ← (Core.encodeFrames validated.coreRuntimeId encodedEnvelope).mapError
    .invalidTransport
  return ⟨operation, route, encodedOperation, encodedEnvelope, frames⟩

/-! ### What a publication is made of -/

variable {operation : Operation} {deployment : DeploymentParameters}
  {publication : PreparedPublication} {network : Network}

/-- A publication under the identity of its deployment. -/
structure PreparedUnder (operation : Operation) (deployment : DeploymentParameters)
    (deploymentId : Bytes32) (publication : PreparedPublication) : Prop where
  identity : deployment.deploymentId = .ok deploymentId
  same : publication.operation = operation
  route : publicationRoute deploymentId operation = .ok publication.route
  encoded : encode operation deployment.codecParameters = .ok publication.encodedOperation
  envelope : ∃ envelope,
    Core.newEnvelope ⟨namesApplicationId deploymentId⟩ publication.encodedOperation = .ok envelope ∧
      publication.encodedEnvelope = Core.encodeEnvelope envelope

theorem exists_preparedUnder (h : preparePublication operation deployment = .ok publication) :
    ∃ deploymentId, PreparedUnder operation deployment deploymentId publication := by
  simp only [preparePublication, Except.bind_eq_ok_iff, Except.mapError_eq_ok_iff] at h
  obtain ⟨validated, hvalidate, deploymentId, hid, route, hroute, encoded, hencode, envelope,
    henvelope, frames, -, hpublication⟩ := h
  obtain ⟨rfl, -, -⟩ := DeploymentParameters.validate_eq_ok hvalidate
  rw [← Except.ok.inj hpublication]
  exact ⟨deploymentId, hid, rfl, hroute, hencode, envelope, henvelope, rfl⟩

/-- The expected route that a publication selects. -/
def PreparedPublication.Selects (publication : PreparedPublication) : ExpectedRoute → Prop
  | .commit => publication.route = .generic
  | .name name => (∃ route, publication.route = .name route) ∧
      publication.operation.publicName = some name

theorem publicationRoute_eq_ok_iff {deploymentId : Bytes32} {route : PublicationRoute} :
    publicationRoute deploymentId operation = .ok route ↔
      (operation.publicName = none ∧ route = .generic) ∨
        ∃ name nameId nameRoute, operation.publicName = some name ∧ name.id = .ok nameId ∧
          NameRoute.derive deploymentId nameId = .ok nameRoute ∧ route = .name nameRoute := by
  rw [publicationRoute]
  rcases hname : operation.publicName with - | name
  · simp [eq_comm]
  · simp only [Except.bind_eq_ok_iff, Except.mapError_eq_ok_iff, reduceCtorEq, false_and,
      Option.some.injEq, false_or]
    constructor
    · rintro ⟨nameId, hid, nameRoute, hroute, h⟩
      exact ⟨name, nameId, nameRoute, rfl, hid, hroute, (Except.ok.inj h).symm⟩
    · rintro ⟨_, nameId, nameRoute, rfl, hid, hroute, rfl⟩
      exact ⟨nameId, hid, nameRoute, hroute, rfl⟩

omit [Core] in
/-- A COMMIT belongs on the generic route, any other operation on the route of its name. -/
theorem onExpectedRoute_iff (expected : ExpectedRoute) :
    onExpectedRoute operation expected = true ↔
      match expected with
      | .commit => operation.publicName = none
      | .name name => operation.publicName = some name := by
  rcases operation with commitment | op | op
  · rcases expected with - | name
    · simp [onExpectedRoute, Operation.publicName]
    · simp [onExpectedRoute, Operation.publicName]
  · rcases expected with - | name
    · simp [onExpectedRoute, Operation.publicName]
    · simp [onExpectedRoute, Operation.publicName]
  · rcases expected with - | name
    · simp [onExpectedRoute, Operation.publicName]
    · simp [onExpectedRoute, Operation.publicName]

/-- The receiver expects an operation exactly on the route its publication selects. -/
theorem PreparedUnder.onExpectedRoute_iff {deploymentId : Bytes32}
    (h : PreparedUnder operation deployment deploymentId publication) (expected : ExpectedRoute) :
    onExpectedRoute operation expected = true ↔ publication.Selects expected := by
  rw [CoppiceNames.onExpectedRoute_iff]
  rcases publicationRoute_eq_ok_iff.1 h.route with
    ⟨hname, hroute⟩ | ⟨name, nameId, nameRoute, hname, -, -, hroute⟩
  · rcases expected with - | expected
    · simp [PreparedPublication.Selects, hname, hroute]
    · simp [PreparedPublication.Selects, hname, hroute]
  · rcases expected with - | expected
    · simp [PreparedPublication.Selects, hname, hroute]
    · simp [PreparedPublication.Selects, hname, hroute, h.same]

/-- A receiver looks for the operation of a name where its publication was sent. -/
theorem PreparedUnder.nameRendezvous_eq {deploymentId : Bytes32}
    (h : PreparedUnder operation deployment deploymentId publication) {route : NameRoute}
    (hroute : publication.route = .name route) {name : Name}
    (hname : operation.publicName = some name) :
    nameRendezvous deployment name =
      (Core.tryNew route.incomingViewingKey route.receiver).mapError .invalidRendezvous := by
  rcases publicationRoute_eq_ok_iff.1 h.route with
    ⟨-, hgeneric⟩ | ⟨found, nameId, nameRoute, hfound, hid, hderive, hfoundRoute⟩
  · exact absurd (hroute.symm.trans hgeneric) (by simp)
  rw [show found = name from Option.some.inj (hfound.symm.trans hname)] at hid
  rw [show nameRoute = route from
    PublicationRoute.name.inj (hfoundRoute.symm.trans hroute)] at hderive
  simp only [nameRendezvous, h.identity, hid, hderive]
  rcases Core.tryNew route.incomingViewingKey route.receiver with e | rendezvous
  · rfl
  · rfl

/-! ### Publication, then inspection -/

/-- What the receiver relies on Core for: an envelope decodes to the key and the payload it was
built from. -/
def EnvelopesDecode : Prop :=
  ∀ key payload envelope, Core.newEnvelope key payload = .ok envelope →
    ∃ decoded, Core.decodeEnvelope (Core.encodeEnvelope envelope) = .ok decoded ∧
      Core.key decoded = key ∧ Core.payload decoded = payload

/-- **Publication and inspection agree.** The message of a publication is its operation on the route
the publication selects and on no other, unless a frame carries value; under another application it
is not a message of Names. A receiver that looks for the name derives the route that was published.
-/
theorem publication_inspection (hcore : EnvelopesDecode)
    (hprepare : preparePublication operation deployment = .ok publication)
    (hua : operation.UaCanonicalFor network) :
    ∃ envelope, Core.decodeEnvelope publication.encodedEnvelope = .ok envelope ∧
      (∀ routedFrames : List RoutedFrame, (∀ frame ∈ routedFrames, frame.value = 0) →
        ∀ expected,
          (publication.Selects expected →
            classifyInspection routedFrames (.message envelope) deployment network expected =
              .operation operation) ∧
          (¬ publication.Selects expected →
            classifyInspection routedFrames (.message envelope) deployment network expected =
              .rejected .wrongRoute)) ∧
      (∀ routedFrames : List RoutedFrame, (∃ frame ∈ routedFrames, frame.value ≠ 0) →
        ∀ expected, classifyInspection routedFrames (.message envelope) deployment
          network expected =
          .rejected .nonZeroCarrierValue) ∧
      (∀ other : DeploymentParameters, other.validate = .ok other →
        ∀ deploymentId otherId, deployment.deploymentId = .ok deploymentId →
          other.deploymentId = .ok otherId →
          namesApplicationId otherId ≠ namesApplicationId deploymentId →
          ∀ routedFrames : List RoutedFrame, (∀ frame ∈ routedFrames, frame.value = 0) →
            ∀ otherNetwork expected,
              classifyInspection routedFrames (.message envelope) other otherNetwork expected =
                .rejected .wrongApplication) ∧
      ∀ (name : Name) (route : NameRoute), operation.publicName = some name →
        publication.route = .name route → nameRendezvous deployment name =
          (Core.tryNew route.incomingViewingKey route.receiver).mapError .invalidRendezvous := by
  obtain ⟨deploymentId, hunder⟩ := exists_preparedUnder hprepare
  obtain ⟨built, hnew, hencoded⟩ := hunder.envelope
  obtain ⟨envelope, hdecoded, hkey, hpayload⟩ := hcore _ _ _ hnew
  -- the payload decodes to the operation that was encoded
  have hdecode : decode (Core.payload envelope) network deployment.codecParameters =
      .ok operation := by
    obtain ⟨hparameters, hproof, hout, -⟩ := encode_eq_ok_iff.1 hunder.encoded
    rw [hpayload, hout]
    exact decode_eq_ok_iff.2 ⟨hparameters, Operation.accepts_canonicalEncoding hua hproof⟩
  refine ⟨envelope, by rw [hencoded, hdecoded], ?_, ?_, ?_,
    fun name route hname hroute ↦ hunder.nameRendezvous_eq hroute hname⟩
  · intro routedFrames hzero expected
    rw [classifyInspection_of_zero hzero, classifyInspection_of_key_eq
      hunder.identity hkey, hdecode]
    refine ⟨fun hselects ↦ ?_, fun hselects ↦ ?_⟩
    · have hroute := (hunder.onExpectedRoute_iff expected).2 hselects
      exact if_neg (by rw [hroute]; decide)
    · have hroute : onExpectedRoute operation expected = false :=
        Bool.eq_false_iff.2 fun h ↦ hselects ((hunder.onExpectedRoute_iff expected).1 h)
      exact if_pos hroute
  · rintro routedFrames ⟨frame, hframe, hvalue⟩ expected
    exact classifyInspection_of_nonZero hframe hvalue
  · intro other hother id otherId hid hotherId hne routedFrames hzero otherNetwork expected
    rw [classifyInspection_of_zero hzero]
    refine classifyInspection_of_key_ne hotherId ?_
    rw [hkey, show deploymentId = id from Except.ok.inj (hunder.identity.symm.trans hid)]
    exact fun h ↦ hne (ApplicationKey.mk.inj h).symm

end Publication

namespace Sample

theorem envelopesDecode : EnvelopesDecode := by
  intro key payload envelope hnew
  rw [← Except.ok.inj hnew]
  refine ⟨(key, payload), ?_, rfl, rfl⟩
  have hlength : 32 ≤ (key.applicationId.toList ++ payload).length := by simp
  show (if h : 32 ≤ (key.applicationId.toList ++ payload).length then
    Except.ok (⟨⟨((key.applicationId.toList ++ payload).take 32).toArray, by simp⟩⟩,
      (key.applicationId.toList ++ payload).drop 32)
    else .error ()) = Except.ok (key, payload)
  rw [dif_pos hlength, Except.ok.injEq, Prod.mk.injEq]
  refine ⟨congrArg ApplicationKey.mk (Vector.toList_inj.1 ?_), by simp⟩
  show ((key.applicationId.toList ++ payload).take 32) = key.applicationId.toList
  exact List.take_left' (by simp)

/-- The REVEAL of `alice` is published and inspected. -/
theorem publication_inspection_reveal :
    ∃ publication, preparePublication (.reveal reveal) deployment = .ok publication ∧
      ∃ envelope, Core.decodeEnvelope publication.encodedEnvelope = .ok envelope ∧
        (∀ routedFrames : List RoutedFrame, (∀ frame ∈ routedFrames, frame.value = 0) →
          ∀ expected,
            (publication.Selects expected →
              classifyInspection routedFrames (.message envelope) deployment .regtest expected =
                .operation (.reveal reveal)) ∧
            (¬ publication.Selects expected →
              classifyInspection routedFrames (.message envelope) deployment .regtest expected =
                .rejected .wrongRoute)) ∧
        (∀ routedFrames : List RoutedFrame, (∃ frame ∈ routedFrames, frame.value ≠ 0) →
          ∀ expected,
            classifyInspection routedFrames (.message envelope) deployment .regtest expected =
              .rejected .nonZeroCarrierValue) ∧
        (∀ other : DeploymentParameters, other.validate = .ok other →
          ∀ deploymentId otherId, deployment.deploymentId = .ok deploymentId →
            other.deploymentId = .ok otherId →
            namesApplicationId otherId ≠ namesApplicationId deploymentId →
            ∀ routedFrames : List RoutedFrame, (∀ frame ∈ routedFrames, frame.value = 0) →
              ∀ otherNetwork expected,
                classifyInspection routedFrames (.message envelope) other otherNetwork expected =
                  .rejected .wrongApplication) ∧
        ∀ (name : Name) (route : NameRoute), (Operation.reveal reveal).publicName = some name →
          publication.route = .name route → nameRendezvous deployment name =
            (Core.tryNew route.incomingViewingKey route.receiver).mapError .invalidRendezvous := by
  have hprepared : (preparePublication (.reveal reveal) deployment).toOption.isSome = true := by
    decide +kernel
  rcases hprepare : preparePublication (.reveal reveal) deployment with e | publication
  · rw [hprepare] at hprepared
    exact absurd hprepared Bool.false_ne_true
  · exact ⟨publication, rfl, publication_inspection envelopesDecode hprepare ua_canonicalFor⟩

end Sample

end CoppiceNames
