import DomainKmip.Generate
import DomainKmip.SigningSafety

namespace DomainKmip.GenerateSafety

open DomainKmip.Library.RustResult
open DomainKmip.Library.Interaction
open DomainKmip.Domain
open DomainKmip.Kmip
open DomainKmip.Dependencies
open DomainKmip.Errors
open DomainKmip.Algorithms
open DomainKmip.Client
open DomainKmip.KeyPairs
open DomainKmip.SigningSafety
open DomainKmip.Generate

abbrev Exchange := Event Call Reply

/-- Whether there is a client after the exchange, if there was one before. -/
def holdsAfter (held : Bool) : Exchange → Bool
  | ⟨.connect _, .ok _⟩ => true
  | ⟨.release _, _⟩ => false
  | _ => held

def holding (h : List Exchange) : Bool := h.foldl holdsAfter false

def confirms : Exchange → Option CreateKeyPairResponsePayload
  | ⟨.doRequestPayload _ (.CreateKeyPair ..), .ok (.ok (.CreateKeyPair payload))⟩ => some payload
  | _ => none

def confirmed (h : List Exchange) : List CreateKeyPairResponsePayload := h.filterMap confirms

def isCreation : Exchange → Bool
  | ⟨.doRequestPayload _ (.CreateKeyPair ..), _⟩ => true
  | _ => false

def creations (h : List Exchange) : List Exchange := h.filter isCreation

def Advertised (h : List Exchange) : Prop :=
  ∃ pool extensions, ⟨.query pool, .ok ⟨some extensions⟩⟩ ∈ h ∧ ⟨edxxxExtension⟩ ∈ extensions

def Acknowledged (h : List Exchange) (id : UniqueIdentifier) : Prop :=
  ∃ pool id', ⟨.doRequestPayload pool (.Activate (some id)), .ok (.ok (.Activate id'))⟩ ∈ h

def LengthPermitted : GenerateParams → Prop
  | .RsaSha256 bits => 512 ≤ bits.toNat ∧ bits.toNat ≤ 4096
  | .RsaSha512 bits => 1024 ≤ bits.toNat ∧ bits.toNat ≤ 4096
  | _ => True

def NeedsEdxxx (params : GenerateParams) : Prop := params = .Ed25519 ∨ params = .Ed448

def curveOf : GenerateParams → Option RecommendedCurve
  | .EcdsaP256Sha256 => some .P_256
  | .EcdsaP384Sha384 => some .P_384
  | _ => none

/-- The request repeats the only one before it, which was answered by a server error,
and adds the curve of the algorithm. -/
def Retries (params : GenerateParams) (before : List Exchange) (request : RequestPayload) : Prop :=
  ∃ pool commonAttrs privateKeyAttrs publicKeyAttrs err curve,
    creations before = [⟨.doRequestPayload pool
      (.CreateKeyPair (some commonAttrs) privateKeyAttrs publicKeyAttrs),
      .ok (.error (.ServerError err))⟩] ∧
    curveOf params = some curve ∧
    request = .CreateKeyPair (some (commonAttrs ++
        [.named "Cryptographic Domain Parameters" none { recommendedCurve := some curve }]))
      privateKeyAttrs publicKeyAttrs

def Allowed (params : GenerateParams) (before : List Exchange) : Call → Prop
  | .connect _ => holding before = false
  | .release _ => holding before = true
  | .query _ => holding before = true
  | .doRequestPayload _ (.CreateKeyPair c v b) => holding before = true ∧
      LengthPermitted params ∧ (NeedsEdxxx params → Advertised before) ∧
      (creations before = [] ∨ Retries params before (.CreateKeyPair c v b))
  | .doRequestPayload _ (.Activate id) => holding before = true ∧
      ∃ payload, confirmed before = [payload] ∧ id = some payload.privateKeyUniqueIdentifier
  | .getKey _ id => holding before = true ∧
      ∃ payload, confirmed before = [payload] ∧ id = payload.publicKeyUniqueIdentifier
  | _ => False

def Completed (params : GenerateParams) (flags : UInt16) (h : List Exchange)
    (keyPair : KeyPair) : Prop :=
  ∃ payload, confirmed h = [payload] ∧
    keyPair.privateKeyId = payload.privateKeyUniqueIdentifier ∧
    keyPair.publicKeyId = payload.publicKeyUniqueIdentifier ∧
    keyPair.algorithm = params.algorithm ∧ keyPair.flags = flags ∧
    Acknowledged h payload.privateKeyUniqueIdentifier

section Append

variable {h : List Exchange}

theorem holding_append (e : Exchange) : holding (h ++ [e]) = holdsAfter (holding h) e := by
  simp [holding]

theorem confirmed_append (e : Exchange) :
    confirmed (h ++ [e]) = confirmed h ++ (confirms e).toList := by
  rw [confirmed, List.filterMap_append, confirmed, List.filterMap_cons]
  cases confirms e <;> rfl

theorem creations_append (e : Exchange) :
    creations (h ++ [e]) = creations h ++ (if isCreation e then [e] else []) := by
  rw [creations, List.filter_append, creations, List.filter_cons, List.filter_nil]

theorem Advertised.append (hh : Advertised h) (e : Exchange) : Advertised (h ++ [e]) := by
  obtain ⟨pool, extensions, hmem, hext⟩ := hh
  exact ⟨pool, extensions, by simp [hmem], hext⟩

end Append

variable {crates : Crates} {params : GenerateParams} {pool : ConnPool} {h : List Exchange}

theorem meets_sendRequest {allowed : List Exchange → Call → Prop} {request : RequestPayload}
    {post : Outcome GenerateError (Except NetError ResponsePayload) → List Exchange → Prop} :
    (sendRequest crates pool request).Meets history allowed post h ↔
      allowed h (.doRequestPayload pool request) ∧
        ∀ r, post (Outcome.ofExcept (GenerateError.ofNetError crates) r)
          (h ++ [⟨.doRequestPayload pool request, r⟩]) := by
  rw [sendRequest, Action.meets_bind, Action.meets_doRequestPayload]
  refine and_congr_right fun _ => ?_
  simp only [history, forall_eq]
  rfl

/-- The client is there and no key has been asked for. -/
structure Ready (h : List Exchange) : Prop where
  held : holding h = true
  noCreation : creations h = []
  noKeys : confirmed h = []

theorem kmip1xEdxxxSupported_iff {response : QueryResponsePayload} :
    kmip1xEdxxxSupported response = true ↔
      ∃ extensions, response = ⟨some extensions⟩ ∧ ⟨edxxxExtension⟩ ∈ extensions := by
  rcases response with ⟨_ | extensions⟩
  · simp [kmip1xEdxxxSupported]
  · simp only [kmip1xEdxxxSupported, Option.map_some, Option.getD_some, List.any_eq_true,
      decide_eq_true_eq, QueryResponsePayload.mk.injEq, Option.some.injEq, exists_eq_left']
    constructor
    · rintro ⟨⟨name⟩, hmem, rfl⟩
      exact hmem
    · intro hmem
      exact ⟨_, hmem, rfl⟩

theorem requireEdxxxSupport_meets (hready : Ready h) :
    (requireEdxxxSupport crates params pool).Meets history (Allowed params)
      (fun o h' => Ready h' ∧ (o = .ok () → NeedsEdxxx params → Advertised h')) h := by
  rw [requireEdxxxSupport]
  split
  · rw [Action.meets_bind, Action.meets_query]
    refine ⟨hready.held, ?_⟩
    rintro reply _ rfl
    have hready' : Ready (h ++ [⟨.query pool, reply⟩]) := by
      constructor
      · rw [holding_append, hready.held]
        rfl
      · rw [creations_append, hready.noCreation]
        rfl
      · rw [confirmed_append, hready.noKeys]
        rfl
    rw [Action.andThen, Action.meets_bind, Action.meets_lift]
    cases reply with
    | error err => exact ⟨hready', nofun⟩
    | ok response =>
        simp only [Outcome.ofExcept_ok, Action.andThen]
        split
        · rename_i hsupported
          obtain ⟨extensions, rfl, hmem⟩ := kmip1xEdxxxSupported_iff.mp hsupported
          exact ⟨hready', fun _ _ => ⟨pool, extensions, by simp, hmem⟩⟩
        · exact ⟨hready', nofun⟩
  · rename_i hparams
    refine ⟨hready, fun _ hneeds => ?_⟩
    rcases hneeds with rfl | rfl <;> simp [isEdwards] at hparams

theorem inRange_of_eq_ok {alg : AlgorithmInfo} {bits min max : UInt32}
    {attributes : List Attribute} (hrange : alg.lenRange = some (min, max))
    (h : lengthAttributes alg (some bits) = .ok attributes) : min ≤ bits ∧ bits ≤ max := by
  by_contra hout
  simp [lengthAttributes, outsideRange, hrange, hout] at h

theorem lengthPermitted_of_eq_ok {attributes : List Attribute}
    (h : lengthAttributes (selectAlgorithm params).1 (selectAlgorithm params).2 =
      .ok attributes) : LengthPermitted params := by
  cases params with
  | RsaSha256 bits => exact inRange_of_eq_ok rfl h
  | RsaSha512 bits => exact inRange_of_eq_ok rfl h
  | _ => trivial

theorem curve_of_selectAlgorithm (params : GenerateParams) :
    (selectAlgorithm params).1.ellipticCurve.bind EllipticCurveInfo.kmipRecommendedCurve =
      curveOf params := by
  cases params <;> rfl

def keysOf : Outcome GenerateError (Except NetError ResponsePayload) →
    List CreateKeyPairResponsePayload
  | .ok (.ok (.CreateKeyPair payload)) => [payload]
  | _ => []

variable (crates) in
theorem confirmed_append_creation (common privateKey publicKey : Option (List Attribute))
    (reply : Except NetError (Except NetError ResponsePayload)) :
    confirmed (h ++ [⟨.doRequestPayload pool (.CreateKeyPair common privateKey publicKey),
      reply⟩]) = confirmed h ++
        keysOf (Outcome.ofExcept (GenerateError.ofNetError crates) reply) := by
  rw [confirmed_append]
  rcases reply with err | err | payload
  · rfl
  · rfl
  · cases payload <;> rfl

/-- The first request goes out when everything has been checked, and the second one
is its retry. -/
theorem createKeyPair_meets (hready : Ready h) (hlength : LengthPermitted params)
    (hedxxx : NeedsEdxxx params → Advertised h) {alg : AlgorithmInfo}
    (halg : alg.ellipticCurve.bind EllipticCurveInfo.kmipRecommendedCurve = curveOf params)
    (commonAttrs privateKeyAttrs publicKeyAttrs : List Attribute) :
    (createKeyPair crates alg commonAttrs privateKeyAttrs publicKeyAttrs pool).Meets history
      (Allowed params) (fun o h' => holding h' = true ∧ confirmed h' = keysOf o) h := by
  rw [createKeyPair, Action.meets_bind, meets_sendRequest]
  refine ⟨⟨hready.held, hlength, hedxxx, Or.inl hready.noCreation⟩, fun reply => ?_⟩
  have hheld : ∀ r, holding (h ++ [⟨.doRequestPayload pool (.CreateKeyPair (some commonAttrs)
      (some privateKeyAttrs) (some publicKeyAttrs)), r⟩]) = true := by
    intro r
    rw [holding_append, hready.held]
    rfl
  have hkeys : ∀ r, confirmed (h ++ [⟨.doRequestPayload pool (.CreateKeyPair
      (some commonAttrs) (some privateKeyAttrs) (some publicKeyAttrs)), r⟩]) =
        keysOf (Outcome.ofExcept (GenerateError.ofNetError crates) r) := by
    intro r
    rw [confirmed_append_creation crates, hready.noKeys]
    rfl
  rcases reply with err | response
  · exact ⟨hheld _, hkeys _⟩
  · simp only [Outcome.ofExcept_ok, Action.andThen]
    split
    · rename_i err curve heq
      rw [meets_sendRequest]
      refine ⟨⟨hheld _, hlength, fun hneeds => (hedxxx hneeds).append _, Or.inr ?_⟩, ?_⟩
      · refine ⟨pool, commonAttrs, _, _, err, curve, ?_, halg ▸ heq, rfl⟩
        rw [creations_append, hready.noCreation]
        rfl
      · intro reply'
        refine ⟨?_, ?_⟩
        · rw [holding_append, hheld]
          rfl
        · rw [confirmed_append_creation crates, hkeys]
          rfl
    · exact ⟨hheld _, hkeys _⟩

def responseKeys : Outcome GenerateError ResponsePayload → List CreateKeyPairResponsePayload
  | .ok (.CreateKeyPair payload) => [payload]
  | _ => []

theorem requestKeyPair_meets (publicKeyName privateKeyName : String) (hready : Ready h) :
    (requestKeyPair crates publicKeyName privateKeyName params pool).Meets history
      (Allowed params) (fun o h' => holding h' = true ∧ confirmed h' = responseKeys o) h := by
  rw [requestKeyPair, Action.meets_bind]
  apply (requireEdxxxSupport_meets hready).mono
  rintro (_ | err | _) h' ⟨hready', hedxxx⟩
  · rw [Action.andThen, Action.meets_bind, Action.meets_lift]
    cases hattributes : lengthAttributes (selectAlgorithm params).1 (selectAlgorithm params).2 with
    | ok attributes =>
        rw [Action.andThen, Action.meets_bind]
        refine (createKeyPair_meets hready' (lengthPermitted_of_eq_ok hattributes) (hedxxx rfl)
          (curve_of_selectAlgorithm params) _ _ _).mono ?_
        rintro ((err | payload) | err | _) h'' ⟨hheld, hkeys⟩
        · exact ⟨hheld, hkeys⟩
        · refine ⟨hheld, hkeys.trans ?_⟩
          cases payload <;> rfl
        · exact ⟨hheld, hkeys⟩
        · exact ⟨hheld, hkeys⟩
    | err e => exact ⟨hready'.held, hready'.noKeys⟩
    | panic => exact ⟨hready'.held, hready'.noKeys⟩
  · exact ⟨hready'.held, hready'.noKeys⟩
  · exact ⟨hready'.held, hready'.noKeys⟩

/-- The server has confirmed one key pair; `held` says whether there is a client. -/
structure Session (held : Bool) (h : List Exchange) (payload : CreateKeyPairResponsePayload) :
    Prop where
  client : holding h = held
  keys : confirmed h = [payload]

theorem Session.append {held held' : Bool} {payload : CreateKeyPairResponsePayload}
    (hsession : Session held h payload) {e : Exchange} (hclient : holdsAfter held e = held')
    (hkeys : confirms e = none) : Session held' (h ++ [e]) payload := by
  constructor
  · rw [holding_append, hsession.client, hclient]
  · rw [confirmed_append, hsession.keys, hkeys]
    rfl

theorem fetch_meets {payload : CreateKeyPairResponsePayload} {algorithm : SecurityAlgorithm}
    (hsession : Session false h payload) :
    (PublicKeys.forKeyIdAndDnssecAlgorithm crates payload.publicKeyUniqueIdentifier
      algorithm pool).Meets history (Allowed params)
        (fun _ h' => Session false h' payload) h := by
  rw [PublicKeys.forKeyIdAndDnssecAlgorithm, Action.meets_withClient]
  refine ⟨hsession.client, ?_, ?_⟩
  · rintro err _ rfl
    exact hsession.append rfl rfl
  · rintro _ rfl
    have hserving : Session true (h ++ [⟨.connect pool, .ok ()⟩]) payload := hsession.append rfl rfl
    rw [Action.meets_bind, Action.meets_getKey]
    refine ⟨⟨hserving.client, payload, hserving.keys, rfl⟩, ?_⟩
    rintro reply _ rfl
    have hfetched : Session true (h ++ [⟨.connect pool, .ok ()⟩] ++ [⟨.getKey pool
        payload.publicKeyUniqueIdentifier, reply⟩]) payload := hserving.append rfl rfl
    cases reply with
    | error err =>
        refine ⟨hfetched.client, ?_⟩
        rintro _ rfl
        exact hfetched.append rfl rfl
    | ok object =>
        refine ⟨hfetched.client, ?_⟩
        rintro _ rfl
        exact hfetched.append rfl rfl

theorem fromMetadata_meets {flags : UInt16} {payload : CreateKeyPairResponsePayload}
    (hsession : Session false h payload) :
    (fromMetadata crates params.algorithm flags payload.privateKeyUniqueIdentifier
        payload.publicKeyUniqueIdentifier pool).Meets history (Allowed params)
      (fun o h' => Session false h' payload ∧ ∀ keyPair, o = .ok keyPair →
        keyPair.privateKeyId = payload.privateKeyUniqueIdentifier ∧
        keyPair.publicKeyId = payload.publicKeyUniqueIdentifier ∧
        keyPair.algorithm = params.algorithm ∧ keyPair.flags = flags) h := by
  rw [fromMetadata, Action.meets_bind, Action.meets_mapErr]
  apply (fetch_meets hsession).mono
  rintro (key | err | _) h' hsession'
  · rw [Outcome.mapErr, Action.andThen, Action.meets_bind, Action.meets_lift]
    rcases (PublicKeys.dnskey key flags : Outcome GenerateError Dnskey) with dnskey | e | _
    · refine ⟨hsession', ?_⟩
      rintro keyPair ⟨⟩
      exact ⟨rfl, rfl, rfl, rfl⟩
    · exact ⟨hsession', by simp⟩
    · exact ⟨hsession', by simp⟩
  · exact ⟨hsession', by simp⟩
  · exact ⟨hsession', by simp⟩

theorem activate_meets {payload : CreateKeyPairResponsePayload}
    (hsession : Session true h payload) :
    (activate crates payload.privateKeyUniqueIdentifier pool).Meets history (Allowed params)
      (fun o h' => Session true h' payload ∧
        (o = .ok () → Acknowledged h' payload.privateKeyUniqueIdentifier)) h := by
  rw [activate, Action.meets_bind, meets_sendRequest]
  refine ⟨⟨hsession.client, payload, hsession.keys, rfl⟩, ?_⟩
  rintro (err | err | response)
  · exact ⟨hsession.append rfl rfl, nofun⟩
  · exact ⟨hsession.append rfl rfl, nofun⟩
  · rw [Outcome.ofExcept_ok, Action.andThen, Action.meets_bind, Action.meets_lift,
      Outcome.ofExcept_ok, Action.andThen]
    cases response with
    | Activate id => exact ⟨hsession.append rfl rfl, fun _ => ⟨pool, id, by simp⟩⟩
    | _ => exact ⟨hsession.append rfl rfl, nofun⟩

theorem locateAndActivate_meets {flags : UInt16} {payload : CreateKeyPairResponsePayload}
    (hsession : Session false h payload) :
    (locateAndActivate crates params.algorithm flags pool payload).Meets history (Allowed params)
      (fun o t => confirmed t = [payload] ∧
        ∀ keyPair, o = .ok keyPair → Completed params flags t keyPair) h := by
  rw [locateAndActivate, Action.meets_bind, Action.meets_mapErr]
  apply (fromMetadata_meets hsession).mono
  rintro (keyPair | err | _) h' ⟨hsession', hkeyPair⟩
  · obtain ⟨hprivate, hpublic, halgorithm, hflags⟩ := hkeyPair keyPair rfl
    rw [Outcome.mapErr, Action.andThen, Action.meets_bind, Action.meets_withClient]
    refine ⟨hsession'.client, ?_, ?_⟩
    · rintro err _ rfl
      exact ⟨(hsession'.append rfl rfl).keys, by simp⟩
    · rintro _ rfl
      apply (activate_meets (hsession'.append rfl rfl)).mono
      rintro o h'' ⟨hsession'', hactivated⟩
      refine ⟨hsession''.client, ?_⟩
      rintro _ rfl
      have hkeys := (hsession''.append (e := ⟨.release pool, ()⟩) rfl rfl).keys
      cases o with
      | ok _ =>
          refine ⟨hkeys, ?_⟩
          rintro _ ⟨⟩
          obtain ⟨pool', id', hmem⟩ := hactivated rfl
          exact ⟨payload, hkeys, hprivate, hpublic, halgorithm, hflags, pool', id',
            by simp [hmem]⟩
      | err e => exact ⟨hkeys, by simp⟩
      | panic => exact ⟨hkeys, by simp⟩
  · exact ⟨hsession'.keys, by simp⟩
  · exact ⟨hsession'.keys, by simp⟩

theorem generate_meets (crates : Crates) (publicKeyName privateKeyName : String)
    (params : GenerateParams) (flags : UInt16) (pool : ConnPool) :
    (generate crates publicKeyName privateKeyName params flags pool).Meets history
      (Allowed params)
      (fun o t => (confirmed t).length ≤ 1 ∧
        ∀ keyPair, o = .ok keyPair → Completed params flags t keyPair) [] := by
  rw [generate, Action.meets_bind, Action.meets_withClient]
  refine ⟨rfl, ?_, ?_⟩
  · rintro err _ rfl
    exact ⟨Nat.zero_le 1, by simp⟩
  · rintro _ rfl
    refine (requestKeyPair_meets publicKeyName privateKeyName ⟨rfl, rfl, rfl⟩).mono ?_
    rintro o h ⟨hheld, hkeys⟩
    refine ⟨hheld, ?_⟩
    rintro _ rfl
    have hreleased : confirmed (h ++ [⟨.release pool, ()⟩]) = responseKeys o := by
      rw [confirmed_append, hkeys]
      exact List.append_nil _
    rcases o with response | err | _
    · rw [Action.andThen, Action.meets_bind, Action.meets_lift]
      cases response with
      | CreateKeyPair payload =>
          have hsession : Session false (h ++ [⟨.release pool, ()⟩]) payload := by
            constructor
            · rw [holding_append]
              rfl
            · exact hreleased
          apply (locateAndActivate_meets hsession).mono
          rintro o' t ⟨hkeys', hcompleted⟩
          exact ⟨by rw [hkeys']; exact le_rfl, hcompleted⟩
      | _ => exact ⟨by rw [hreleased]; exact Nat.zero_le 1, by simp⟩
    · exact ⟨by rw [hreleased]; exact Nat.zero_le 1, by simp⟩
    · exact ⟨by rw [hreleased]; exact Nat.zero_le 1, by simp⟩

/-- The run of `generate`, against any server: the calls it makes, how many key pairs
it is told of, and what it returns. -/
theorem generate_safe {crates : Crates} {publicKeyName privateKeyName : String}
    {params : GenerateParams} {flags : UInt16} {pool : ConnPool} {t : List Exchange}
    {outcome : Outcome GenerateError KeyPair}
    (h : (generate crates publicKeyName privateKeyName params flags pool).program.Admits t
      outcome) :
    (∀ before e after, t = before ++ e :: after → Allowed params before e.call) ∧
      (confirmed t).length ≤ 1 ∧
      ∀ keyPair, outcome = .ok keyPair → Completed params flags t keyPair := by
  obtain ⟨hpost, hallowed⟩ := sound_of_meets_history
    (generate_meets crates publicKeyName privateKeyName params flags pool) h
  exact ⟨hallowed, hpost⟩

def willingKey : ManagedObject :=
  .PublicKey
    { keyFormatType := .Raw
      keyMaterial := .Bytes (List.replicate 32 1)
      cryptographicAlgorithm := some .Ed25519
      cryptographicLength := some 256 }

/-- A server that does what it is asked for. -/
def willingReplies : (call : Call) → Reply call
  | .connect _ => .ok ()
  | .release _ => ()
  | .query _ => .ok ⟨some [⟨edxxxExtension⟩]⟩
  | .doRequestPayload _ (.CreateKeyPair ..) => .ok (.ok (.CreateKeyPair ⟨"private", "public"⟩))
  | .doRequestPayload _ (.Activate id) => .ok (.ok (.Activate (id.getD "")))
  | .doRequestPayload _ (.Sign _ _ data) => .ok (.ok (.Sign ⟨data⟩))
  | .doRequestBatch .. => .ok []
  | .getKey .. => .ok willingKey
  | .revokeKey .. => .ok ()
  | .destroyKey .. => .ok ()

def willingKeyPair : KeyPair where
  algorithm := .ED25519
  privateKeyId := "private"
  publicKeyId := "public"
  connPool := samplePool
  dnskey :=
    { flags := 257
      protocol := 3
      algorithm := .ED25519
      publicKey := List.replicate 32 1
      fits := by decide }
  flags := 257

theorem generate_completes : ∃ t,
    (generate sampleCrates "public" "private" .Ed25519 257 samplePool).program.Admits t
      (.ok willingKeyPair) ∧
    Completed .Ed25519 257 t willingKeyPair := by
  obtain ⟨t, ht⟩ := Program.exists_admits willingReplies
    (generate sampleCrates "public" "private" .Ed25519 257 samplePool).program
  have hreturned : (generate sampleCrates "public" "private" .Ed25519 257
      samplePool).program.eval willingReplies = .ok willingKeyPair := rfl
  rw [hreturned] at ht
  exact ⟨t, ht, (generate_safe ht).2.2 _ rfl⟩

end DomainKmip.GenerateSafety
