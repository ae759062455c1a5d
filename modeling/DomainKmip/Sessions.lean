import DomainKmip.GenerateSafety
import DomainKmip.Operations

namespace DomainKmip.Sessions

open DomainKmip.Library.RustResult
open DomainKmip.Library.Interaction
open DomainKmip.Domain
open DomainKmip.Kmip
open DomainKmip.Dependencies
open DomainKmip.Algorithms
open DomainKmip.Client
open DomainKmip.KeyPairs
open DomainKmip.Generate
open DomainKmip.GenerateSafety
open DomainKmip.Operations

variable {allowed : List Exchange → Call → Prop} {inv outer inner : List Exchange → Prop}

/-- Each call of the program is allowed, and the invariant holds again at its end. -/
def Preserves {α : Type} (allowed : List Exchange → Call → Prop) (inv : List Exchange → Prop)
    (x : Program Call Reply α) : Prop :=
  ∀ h, inv h → x.Meets history allowed (fun _ h' => inv h') h

/-- A request may be made in a session, which goes on whatever the answer. -/
def Permitted (allowed : List Exchange → Call → Prop) (inner : List Exchange → Prop)
    (call : Call) : Prop :=
  ∀ h, inner h → allowed h call ∧ ∀ reply, inner (h ++ [⟨call, reply⟩])

/-- Sessions lead from the outer invariant to the inner one and back. -/
structure Opens (allowed : List Exchange → Call → Prop) (outer inner : List Exchange → Prop)
    (pool : ConnPool) : Prop where
  connect : ∀ h, outer h → allowed h (.connect pool)
  connected : ∀ h, outer h → inner (h ++ [⟨.connect pool, .ok ()⟩])
  refused : ∀ h err, outer h → outer (h ++ [⟨.connect pool, .error err⟩])
  release : ∀ h, inner h → allowed h (.release pool)
  released : ∀ h, inner h → outer (h ++ [⟨.release pool, ()⟩])

section Rules

variable {ε ε' α β : Type} {pool : ConnPool}

theorem preserves_done (a : α) : Preserves allowed inv (.done a) := fun _ h => h

theorem Preserves.bind {x : Program Call Reply α} {f : α → Program Call Reply β}
    (hx : Preserves allowed inv x) (hf : ∀ a, Preserves allowed inv (f a)) :
    Preserves allowed inv (x >>= f) := by
  intro h hinv
  rw [Program.meets_bind]
  exact (hx h hinv).mono fun a h' hinv' => hf a h' hinv'

theorem preserves_bracket (hopens : Opens allowed outer inner pool)
    {onErr : KmipConnError → β} {body : Program Call Reply β}
    (hbody : Preserves allowed inner body) :
    Preserves allowed outer (bracket pool onErr body) := by
  intro h houter
  rw [meets_bracket]
  refine ⟨hopens.connect h houter, ?_, ?_⟩
  · rintro err _ rfl
    exact hopens.refused h err houter
  · rintro _ rfl
    refine (hbody _ (hopens.connected h houter)).mono fun b h' hinner => ?_
    refine ⟨hopens.release h' hinner, ?_⟩
    rintro _ rfl
    exact hopens.released h' hinner

theorem preserves_lift (x : Outcome ε α) : Preserves allowed inv (Action.lift x).program :=
  preserves_done x

theorem preserves_pure (a : α) : Preserves allowed inv (pure a : Action ε α).program :=
  preserves_done _

theorem preserves_bind {x : Action ε α} {f : α → Action ε β}
    (hx : Preserves allowed inv x.program) (hf : ∀ a, Preserves allowed inv (f a).program) :
    Preserves allowed inv (x >>= f).program := by
  apply Preserves.bind hx
  rintro (a | e | _)
  · exact hf a
  · exact preserves_done _
  · exact preserves_done _

theorem preserves_mapErr {f : ε → ε'} {x : Action ε α} (hx : Preserves allowed inv x.program) :
    Preserves allowed inv (x.mapErr f).program :=
  Preserves.bind hx fun _ => preserves_done _

theorem preserves_withClient (hopens : Opens allowed outer inner pool)
    {onErr : KmipConnError → ε} {body : Action ε α}
    (hbody : Preserves allowed inner body.program) :
    Preserves allowed outer (Action.withClient pool onErr body).program :=
  preserves_bracket hopens hbody

theorem preserves_call {c : Call} (hc : Permitted allowed inner c) (f : Reply c → α) :
    Preserves allowed inner (.call c fun r => .done (f r)) := by
  intro h hinner
  refine ⟨(hc h hinner).1, ?_⟩
  rintro r _ rfl
  exact (hc h hinner).2 r

end Rules

/-- What an operation may ask of the server. -/
inductive Asks : ApiCall → Call → Prop
  | query (publicKeyName privateKeyName : String) (params : GenerateParams) (flags : UInt16)
      (pool : ConnPool) :
      Asks (.generate publicKeyName privateKeyName params flags pool) (.query pool)
  | createKeyPair (publicKeyName privateKeyName : String) (params : GenerateParams)
      (flags : UInt16) (pool : ConnPool) (common privateKey publicKey : Option (List Attribute)) :
      Asks (.generate publicKeyName privateKeyName params flags pool)
        (.doRequestPayload pool (.CreateKeyPair common privateKey publicKey))
  | generated (publicKeyName privateKeyName : String) (params : GenerateParams)
      (flags : UInt16) (pool : ConnPool) (publicKeyId : UniqueIdentifier) :
      Asks (.generate publicKeyName privateKeyName params flags pool) (.getKey pool publicKeyId)
  | activate (publicKeyName privateKeyName : String) (params : GenerateParams)
      (flags : UInt16) (pool : ConnPool) (privateKeyId : UniqueIdentifier) :
      Asks (.generate publicKeyName privateKeyName params flags pool)
        (.doRequestPayload pool (.Activate (some privateKeyId)))
  | revoke (keyId : String) (pool : ConnPool) :
      Asks (.destroy keyId pool) (.revokeKey pool keyId)
  | destroy (keyId : String) (pool : ConnPool) :
      Asks (.destroy keyId pool) (.destroyKey pool keyId)
  | fromMetadata (algorithm : SecurityAlgorithm) (flags : UInt16)
      (privateKeyId publicKeyId : String) (pool : ConnPool) :
      Asks (.fromMetadata algorithm flags privateKeyId publicKeyId pool) (.getKey pool publicKeyId)
  | fromUrls (privKeyUrl pubKeyUrl : KeyUrls.KeyUrl) (pool : ConnPool) :
      Asks (.fromUrls privKeyUrl pubKeyUrl pool) (.getKey pool pubKeyUrl.keyId)
  | forKeyId (publicKeyId : String) (algorithm : SecurityAlgorithm) (pool : ConnPool) :
      Asks (.forKeyIdAndDnssecAlgorithm publicKeyId algorithm pool) (.getKey pool publicKeyId)
  | forKeyUrl (publicKeyUrl : KeyUrls.KeyUrl) (pool : ConnPool) :
      Asks (.forKeyUrl publicKeyUrl pool) (.getKey pool publicKeyUrl.keyId)
  | sign (self : KeyPair) (data : List UInt8) (parameters : CryptographicParameters) :
      Asks (.signRaw self data) (.doRequestPayload self.connPool
        (.Sign (some self.privateKeyId) (some parameters) data))
  | batch (self : KeyPair) (queue : SignQueue) :
      Asks (.signRawSubmitQueue self queue) (.doRequestBatch self.connPool queue.items)

section Operations

variable {crates : Crates} {pool : ConnPool}

theorem preserves_sendRequest {request : RequestPayload}
    (hrequest : Permitted allowed inner (.doRequestPayload pool request)) :
    Preserves allowed inner (sendRequest crates pool request).program :=
  preserves_bind (preserves_call hrequest _) fun _ => preserves_lift _

theorem preserves_requireEdxxxSupport (params : GenerateParams)
    (hquery : Permitted allowed inner (.query pool)) :
    Preserves allowed inner (requireEdxxxSupport crates params pool).program := by
  rw [requireEdxxxSupport]
  split
  · refine preserves_bind (preserves_call hquery _) fun _ =>
      preserves_bind (preserves_lift _) fun response => ?_
    split
    · exact preserves_pure ()
    · exact preserves_lift _
  · exact preserves_pure ()

theorem preserves_createKeyPair (alg : AlgorithmInfo)
    (commonAttrs privateKeyAttrs publicKeyAttrs : List Attribute)
    (hcreate : ∀ common privateKey publicKey, Permitted allowed inner
      (.doRequestPayload pool (.CreateKeyPair common privateKey publicKey))) :
    Preserves allowed inner
      (createKeyPair crates alg commonAttrs privateKeyAttrs publicKeyAttrs pool).program := by
  refine preserves_bind (preserves_sendRequest (hcreate _ _ _)) fun response => ?_
  split
  · exact preserves_sendRequest (hcreate _ _ _)
  · exact preserves_pure _

theorem preserves_activate (privateKeyId : UniqueIdentifier)
    (hactivate : Permitted allowed inner (.doRequestPayload pool (.Activate (some privateKeyId)))) :
    Preserves allowed inner (activate crates privateKeyId pool).program := by
  refine preserves_bind (preserves_sendRequest hactivate) fun _ =>
    preserves_bind (preserves_lift _) fun response => ?_
  split
  · exact preserves_pure ()
  · exact preserves_lift _

theorem preserves_requestKeyPair (publicKeyName privateKeyName : String) (params : GenerateParams)
    (hquery : Permitted allowed inner (.query pool))
    (hcreate : ∀ common privateKey publicKey, Permitted allowed inner
      (.doRequestPayload pool (.CreateKeyPair common privateKey publicKey))) :
    Preserves allowed inner
      (requestKeyPair crates publicKeyName privateKeyName params pool).program :=
  preserves_bind (preserves_requireEdxxxSupport params hquery) fun _ =>
    preserves_bind (preserves_lift _) fun _ =>
      preserves_bind (preserves_createKeyPair _ _ _ _ hcreate) fun _ => preserves_lift _

variable (hopens : Opens allowed outer inner pool)

include hopens

theorem preserves_forKeyIdAndDnssecAlgorithm {publicKeyId : String}
    (algorithm : SecurityAlgorithm) (hget : Permitted allowed inner (.getKey pool publicKeyId)) :
    Preserves allowed outer
      (PublicKeys.forKeyIdAndDnssecAlgorithm crates publicKeyId algorithm pool).program :=
  preserves_withClient hopens <| preserves_bind (preserves_call hget _) fun _ =>
    preserves_bind (preserves_lift _) fun _ => preserves_lift _

theorem preserves_fromMetadata (algorithm : SecurityAlgorithm) (flags : UInt16)
    (privateKeyId : String) {publicKeyId : String}
    (hget : Permitted allowed inner (.getKey pool publicKeyId)) :
    Preserves allowed outer
      (fromMetadata crates algorithm flags privateKeyId publicKeyId pool).program :=
  preserves_bind (preserves_mapErr (preserves_forKeyIdAndDnssecAlgorithm hopens algorithm hget))
    fun _ => preserves_bind (preserves_lift _) fun _ => preserves_pure _

theorem preserves_fromUrls (privKeyUrl pubKeyUrl : KeyUrls.KeyUrl)
    (hget : Permitted allowed inner (.getKey pool pubKeyUrl.keyId)) :
    Preserves allowed outer (KeyUrls.fromUrls crates privKeyUrl pubKeyUrl pool).program := by
  rw [KeyUrls.fromUrls]
  split_ifs
  · exact preserves_lift _
  · exact preserves_lift _
  · exact preserves_lift _
  · exact preserves_lift _
  · exact preserves_fromMetadata hopens _ _ _ hget

theorem preserves_generate (publicKeyName privateKeyName : String) (params : GenerateParams)
    (flags : UInt16) (hquery : Permitted allowed inner (.query pool))
    (hcreate : ∀ common privateKey publicKey, Permitted allowed inner
      (.doRequestPayload pool (.CreateKeyPair common privateKey publicKey)))
    (hget : ∀ publicKeyId, Permitted allowed inner (.getKey pool publicKeyId))
    (hactivate : ∀ privateKeyId, Permitted allowed inner
      (.doRequestPayload pool (.Activate (some privateKeyId)))) :
    Preserves allowed outer
      (generate crates publicKeyName privateKeyName params flags pool).program := by
  refine preserves_bind (preserves_withClient hopens
    (preserves_requestKeyPair publicKeyName privateKeyName params hquery hcreate)) fun response =>
    preserves_bind (preserves_lift _) fun payload => ?_
  refine preserves_bind (preserves_mapErr (preserves_fromMetadata hopens _ _ _ (hget _)))
    fun keyPair => ?_
  exact preserves_bind (preserves_withClient hopens (preserves_activate _ (hactivate _)))
    fun _ => preserves_pure keyPair

theorem preserves_destroy {keyId : String}
    (hrevoke : Permitted allowed inner (.revokeKey pool keyId))
    (hdestroy : Permitted allowed inner (.destroyKey pool keyId)) :
    Preserves allowed outer (destroy crates keyId pool).program :=
  preserves_withClient hopens <| preserves_bind (preserves_call hrevoke _) fun _ =>
    preserves_bind (preserves_lift _) fun _ => preserves_bind (preserves_call hdestroy _) fun _ =>
      preserves_lift _

end Operations

theorem preserves_signRaw {self : KeyPair} (hopens : Opens allowed outer inner self.connPool)
    (data : List UInt8)
    (hsign : ∀ parameters, Permitted allowed inner (.doRequestPayload self.connPool
      (.Sign (some self.privateKeyId) (some parameters) data))) :
    Preserves allowed outer (signRaw self data).program := by
  have hpre : ∀ request, signPre self data = .ok request →
      Permitted allowed inner (.doRequestPayload self.connPool request) := by
    intro request hrequest
    rw [signPre] at hrequest
    split at hrequest
    · simp at hrequest
    · obtain rfl := Outcome.ok.inj hrequest
      exact hsign _
  rw [signRaw]
  cases hrequest : signPre self data with
  | ok request =>
      exact preserves_withClient hopens <| preserves_bind (preserves_call (hpre _ hrequest) _)
        fun _ => preserves_bind (preserves_lift _) fun _ => preserves_bind (preserves_lift _)
          fun _ => preserves_lift _
  | err e => exact preserves_done _
  | panic => exact preserves_done _

theorem preserves_signRawSubmitQueue {self : KeyPair}
    (hopens : Opens allowed outer inner self.connPool) {queue : SignQueue}
    (hbatch : Permitted allowed inner (.doRequestBatch self.connPool queue.items)) :
    Preserves allowed outer (signRawSubmitQueue self queue) := by
  have hsubmit : Preserves allowed inner (submitBatch self queue.items).program :=
    preserves_bind (preserves_call hbatch _) fun _ => preserves_bind (preserves_lift _) fun _ =>
      preserves_lift _
  exact preserves_bracket hopens (hsubmit.bind fun outcome =>
    preserves_done (outcome, SignQueue.new))

/-- An operation keeps what sessions lead back to and its own requests do not end. -/
theorem preserves_program (crates : Crates) {operation : ApiCall}
    (hopens : Opens allowed outer inner operation.connPool)
    (hasks : ∀ c, Asks operation c → Permitted allowed inner c) :
    Preserves allowed outer (operation.program crates) := by
  cases operation with
  | generate publicKeyName privateKeyName params flags connPool =>
      exact preserves_generate hopens publicKeyName privateKeyName params flags
        (hasks _ (.query ..)) (fun _ _ _ => hasks _ (.createKeyPair ..))
        (fun _ => hasks _ (.generated ..)) (fun _ => hasks _ (.activate ..))
  | destroy keyId connPool =>
      exact preserves_destroy hopens (hasks _ (.revoke ..)) (hasks _ (.destroy ..))
  | fromMetadata algorithm flags privateKeyId publicKeyId connPool =>
      exact preserves_fromMetadata hopens algorithm flags privateKeyId
        (hasks _ (.fromMetadata ..))
  | fromUrls privKeyUrl pubKeyUrl connPool =>
      exact preserves_fromUrls hopens privKeyUrl pubKeyUrl (hasks _ (.fromUrls ..))
  | forKeyIdAndDnssecAlgorithm publicKeyId algorithm connPool =>
      exact preserves_forKeyIdAndDnssecAlgorithm hopens algorithm (hasks _ (.forKeyId ..))
  | forKeyUrl publicKeyUrl connPool =>
      exact preserves_forKeyIdAndDnssecAlgorithm hopens publicKeyUrl.algorithm
        (hasks _ (.forKeyUrl ..))
  | signRaw self data =>
      exact preserves_signRaw hopens data fun _ => hasks _ (.sign ..)
  | signRawSubmitQueue self queue =>
      exact preserves_signRawSubmitQueue hopens (hasks _ (.batch ..))

end DomainKmip.Sessions
