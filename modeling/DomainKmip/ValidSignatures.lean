import DomainKmip.BatchSigning
import DomainKmip.GenerateSafety
import DomainKmip.HsmKeys
import DomainKmip.Operations

/-!
That what the crate signs can be validated with what it publishes: in every run of any
number of callers on servers that keep their keys, a signature holds under the DNSKEY
record of its key pair.
-/

namespace DomainKmip.ValidSignatures

open DomainKmip.Library.BigEndian
open DomainKmip.Library.RustResult
open DomainKmip.Library.RustSlice
open DomainKmip.Library.Interaction
open DomainKmip.Library.Concurrency
open DomainKmip.Library.ListRelation
open DomainKmip.Domain
open DomainKmip.Kmip
open DomainKmip.Dependencies
open DomainKmip.Errors
open DomainKmip.Algorithms
open DomainKmip.Client
open DomainKmip.Ecdsa
open DomainKmip.PublicKeys
open DomainKmip.KeyPairs
open DomainKmip.KeyUrls
open DomainKmip.SigningSafety
open DomainKmip.BatchSigning
open DomainKmip.Generate
open DomainKmip.GenerateSafety
open DomainKmip.KeyLoading
open DomainKmip.Validators
open DomainKmip.HsmKeys
open DomainKmip.Operations

/-- The DNSKEY record of the key pair is that of the object that was fetched. -/
def Fetched (crates : Crates) (h : List Exchange) (keyPair : KeyPair) : Prop :=
  ∃ object publicKey, ⟨.getKey keyPair.connPool keyPair.publicKeyId, .ok object⟩ ∈ h ∧
    Holds crates keyPair.algorithm object publicKey ∧
    Dnskey.new keyPair.flags 3 keyPair.algorithm publicKey = some keyPair.dnskey

/-- A server has confirmed the two keys, of the type of the algorithm. -/
def Created (h : List Exchange) (keyPair : KeyPair) : Prop :=
  ∃ algInfo commonAttrs privateKeyAttrs publicKeyAttrs,
    getAlgInfo keyPair.algorithm = some algInfo ∧
    .CryptographicAlgorithm algInfo.kmipCryptoAlg ∈ commonAttrs ∧
    ⟨.doRequestPayload keyPair.connPool
      (.CreateKeyPair (some commonAttrs) privateKeyAttrs publicKeyAttrs),
      .ok (.ok (.CreateKeyPair ⟨keyPair.privateKeyId, keyPair.publicKeyId⟩))⟩ ∈ h

section Operations

variable {crates : Crates} {t : List Exchange} {pool : ConnPool}

theorem Fetched.mono {t' : List Exchange} {keyPair : KeyPair} (h : Fetched crates t keyPair)
    (hsub : ∀ e ∈ t, e ∈ t') : Fetched crates t' keyPair := by
  obtain ⟨object, publicKey, hget, hkey⟩ := h
  exact ⟨object, publicKey, hsub _ hget, hkey⟩

theorem getKey_of_forKeyId {publicKeyId : String} {algorithm : SecurityAlgorithm}
    {key : PublicKey}
    (h : (forKeyIdAndDnssecAlgorithm crates publicKeyId algorithm pool).program.Admits t
      (.ok key)) :
    ∃ object publicKey, ⟨.getKey pool publicKeyId, .ok object⟩ ∈ t ∧
      Holds crates algorithm object publicKey ∧ key = ⟨algorithm, publicKey⟩ := by
  obtain ⟨t₁, rfl, hbody⟩ := Action.of_admits_withClient h
  obtain ⟨reply, t₂, rfl, hfetched⟩ := Action.of_admits_request_bind rfl hbody
  obtain ⟨object, hreply, hlift⟩ := Action.of_admits_lift_bind hfetched
  obtain ⟨publicKey, holds, hkey⟩ :=
    (ofManagedObject_eq_ok_iff crates).mp (Action.of_admits_lift hlift).2
  rcases reply with err | object'
  · simp at hreply
  · obtain rfl : object' = object := Outcome.ok.inj hreply
    exact ⟨object', publicKey, by simp, holds, hkey⟩

theorem fetched_of_fromMetadata {algorithm : SecurityAlgorithm} {flags : UInt16}
    {privateKeyId publicKeyId : String} {keyPair : KeyPair}
    (h : (fromMetadata crates algorithm flags privateKeyId publicKeyId pool).program.Admits t
      (.ok keyPair)) :
    Fetched crates t keyPair ∧ keyPair.algorithm = algorithm ∧ keyPair.flags = flags ∧
      keyPair.privateKeyId = privateKeyId ∧ keyPair.publicKeyId = publicKeyId ∧
      keyPair.connPool = pool := by
  obtain ⟨t₁, t₂, key, rfl, hfetch, hrest⟩ := Action.of_admits_bind h
  obtain ⟨object, publicKey, hget, holds, rfl⟩ :=
    getKey_of_forKeyId (Action.of_admits_mapErr hfetch)
  obtain ⟨dnskey, hdnskey, hdone⟩ := Action.of_admits_lift_bind hrest
  obtain ⟨rfl, heq⟩ := Program.Admits.of_done hdone
  obtain rfl := Outcome.ok.inj heq
  refine ⟨⟨object, publicKey, by simp [hget], holds, ?_⟩, rfl, rfl, rfl, rfl, rfl⟩
  exact Outcome.unwrap_eq_ok_iff.mp hdnskey

theorem fetched_of_fromUrls {privKeyUrl pubKeyUrl : KeyUrl} {keyPair : KeyPair}
    (h : (fromUrls crates privKeyUrl pubKeyUrl pool).program.Admits t (.ok keyPair)) :
    Fetched crates t keyPair ∧ keyPair.algorithm = privKeyUrl.algorithm ∧
      keyPair.flags = privKeyUrl.flags ∧ keyPair.privateKeyId = privKeyUrl.keyId ∧
      keyPair.publicKeyId = pubKeyUrl.keyId ∧ keyPair.connPool = pool := by
  have hrefused : ∀ {e : GenerateError},
      ¬ (Action.lift (.err e)).program.Admits t (.ok keyPair) := by
    intro e hadmits
    simpa using (Action.of_admits_lift hadmits).2
  rw [fromUrls] at h
  split at h
  · exact (hrefused h).elim
  · split at h
    · exact (hrefused h).elim
    · split at h
      · exact (hrefused h).elim
      · split at h
        · exact (hrefused h).elim
        · exact fetched_of_fromMetadata h

theorem response_of_sendRequest {request : RequestPayload}
    {response : Except NetError ResponsePayload}
    (h : (sendRequest crates pool request).program.Admits t (.ok response)) :
    t = [⟨.doRequestPayload pool request, .ok response⟩] := by
  obtain ⟨reply, t₁, rfl, hlift⟩ := Action.of_admits_request_bind rfl h
  obtain ⟨rfl, hreply⟩ := Action.of_admits_lift hlift
  rcases reply with err | response'
  · simp at hreply
  · obtain rfl : response' = response := Outcome.ok.inj hreply
    rfl

/-- Whichever of the two requests was answered in the end had the attributes. -/
theorem response_of_createKeyPair {alg : AlgorithmInfo}
    {commonAttrs privateKeyAttrs publicKeyAttrs : List Attribute}
    {response : Except NetError ResponsePayload}
    (h : (createKeyPair crates alg commonAttrs privateKeyAttrs publicKeyAttrs pool).program.Admits
      t (.ok response)) :
    ∃ moreAttrs, ⟨.doRequestPayload pool (.CreateKeyPair (some (commonAttrs ++ moreAttrs))
      (some privateKeyAttrs) (some publicKeyAttrs)), .ok response⟩ ∈ t := by
  obtain ⟨t₁, t₂, initial, rfl, hsend, hrest⟩ := Action.of_admits_bind h
  rw [response_of_sendRequest hsend]
  split at hrest
  · rename_i curve hcurve
    rw [response_of_sendRequest hrest]
    exact ⟨[curveAttribute curve], by simp⟩
  · obtain ⟨_, heq⟩ := Program.Admits.of_done hrest
    rw [Outcome.ok.inj heq]
    exact ⟨[], by simp⟩

theorem getAlgInfo_selectAlgorithm (params : GenerateParams) :
    getAlgInfo params.algorithm = some (selectAlgorithm params).1 := by
  cases params <;> rfl

theorem created_of_requestKeyPair {publicKeyName privateKeyName : String}
    {params : GenerateParams} {payload : CreateKeyPairResponsePayload}
    (h : (requestKeyPair crates publicKeyName privateKeyName params pool).program.Admits t
      (.ok (.CreateKeyPair payload))) :
    ∃ commonAttrs privateKeyAttrs publicKeyAttrs,
      .CryptographicAlgorithm (selectAlgorithm params).1.kmipCryptoAlg ∈ commonAttrs ∧
      ⟨.doRequestPayload pool (.CreateKeyPair (some commonAttrs) privateKeyAttrs publicKeyAttrs),
        .ok (.ok (.CreateKeyPair payload))⟩ ∈ t := by
  obtain ⟨t₁, t₂, _, rfl, _, hchecked⟩ := Action.of_admits_bind h
  obtain ⟨lengthAttrs, _, hrest⟩ := Action.of_admits_lift_bind hchecked
  obtain ⟨t₃, t₄, response, rfl, hcreate, hlift⟩ := Action.of_admits_bind hrest
  have hresponse := (Action.of_admits_lift hlift).2
  obtain ⟨moreAttrs, hmem⟩ := response_of_createKeyPair hcreate
  rcases response with err | payload'
  · simp at hresponse
  · obtain rfl : payload' = .CreateKeyPair payload := Outcome.ok.inj hresponse
    refine ⟨_, _, _, ?_, List.mem_append_right _ (List.mem_append_left _ hmem)⟩
    exact List.mem_append_left _ List.mem_cons_self

/-- The two ids of a generated key pair are those that were confirmed, and the public
key was fetched under one of them. -/
theorem created_of_generate {publicKeyName privateKeyName : String} {params : GenerateParams}
    {flags : UInt16} {keyPair : KeyPair}
    (h : (generate crates publicKeyName privateKeyName params flags pool).program.Admits t
      (.ok keyPair)) :
    Created t keyPair ∧ Fetched crates t keyPair := by
  obtain ⟨t₁, t₂, response, rfl, hrequest, hrest⟩ := Action.of_admits_bind h
  obtain ⟨payload, hpayload, hlocate⟩ := Action.of_admits_lift_bind hrest
  obtain rfl : response = .CreateKeyPair payload := by
    rw [takeKeyPairIds.eq_def] at hpayload
    split at hpayload
    · rw [Outcome.ok.inj hpayload]
    · simp at hpayload
  obtain ⟨t₅, rfl, hbody⟩ := Action.of_admits_withClient hrequest
  obtain ⟨commonAttrs, privateKeyAttrs, publicKeyAttrs, hasked, hcreated⟩ :=
    created_of_requestKeyPair hbody
  obtain ⟨t₆, t₇, located, rfl, hload, hactivate⟩ := Action.of_admits_bind hlocate
  obtain ⟨t₈, t₉, _, rfl, _, hdone⟩ := Action.of_admits_bind hactivate
  obtain ⟨rfl, heq⟩ := Program.Admits.of_done hdone
  obtain rfl : located = keyPair := Outcome.ok.inj heq
  obtain ⟨hfetched, halgorithm, _, hprivate, hpublic, rfl⟩ :=
    fetched_of_fromMetadata (Action.of_admits_mapErr hload)
  refine ⟨⟨_, commonAttrs, privateKeyAttrs, publicKeyAttrs, ?_, hasked, ?_⟩,
    hfetched.mono fun e he => by simp [he]⟩
  · rw [halgorithm, getAlgInfo_selectAlgorithm]
  · rw [hprivate, hpublic]
    simp [hcreated]

theorem signPost_eq_ok_iff {self : KeyPair} {payload : ResponsePayload} {signature : Signature} :
    signPost self payload = .ok signature ↔
      ∃ signed algInfo, payload = .Sign signed ∧ getAlgInfo self.algorithm = some algInfo ∧
        algInfo.sigParser signed.signatureData = .ok signature := by
  cases payload with
  | Sign signed => cases h : getAlgInfo self.algorithm <;> simp [signPost, h]
  | _ => simp [signPost]

theorem signed_of_signRaw {self : KeyPair} {data : Octets} {signature : Signature}
    (h : (signRaw self data).program.Admits t (.ok signature)) :
    ∃ algInfo signed, getAlgInfo self.algorithm = some algInfo ∧
      ⟨.doRequestPayload self.connPool
        (.Sign (some self.privateKeyId) (some (signParameters algInfo)) data),
        .ok (.ok (.Sign signed))⟩ ∈ t ∧
      algInfo.sigParser signed.signatureData = .ok signature := by
  obtain ⟨request, hpre, hrest⟩ := Action.of_admits_lift_bind h
  obtain ⟨t₁, rfl, hbody⟩ := Action.of_admits_withClient hrest
  obtain ⟨reply, t₂, rfl, hsent⟩ := Action.of_admits_request_bind rfl hbody
  obtain ⟨response, hresponse, hanswered⟩ := Action.of_admits_lift_bind hsent
  obtain ⟨payload, hpayload, hpost⟩ := Action.of_admits_lift_bind hanswered
  obtain ⟨signed, algInfo, rfl, halg, hparse⟩ :=
    signPost_eq_ok_iff.mp (Action.of_admits_lift hpost).2
  refine ⟨algInfo, signed, halg, ?_, hparse⟩
  rw [signPre, halg] at hpre
  obtain rfl := Outcome.ok.inj hpre
  rcases reply with err | err | payload
  · simp at hresponse
  · obtain rfl := Outcome.ok.inj hresponse
    simp at hpayload
  · obtain rfl := Outcome.ok.inj hresponse
    obtain rfl : payload = .Sign signed := Outcome.ok.inj hpayload
    simp

theorem answered_of_signRawSubmitQueue {self : KeyPair} {queue rest : SignQueue}
    {signatures : List Signature}
    (h : (signRawSubmitQueue self queue).Admits t (.ok signatures, rest)) :
    ∃ items, ⟨.doRequestBatch self.connPool queue.items, .ok items⟩ ∈ t ∧
      List.Forall₂ (fun res signature => signBatchItem self res = .ok signature) items
        signatures := by
  rcases of_admits_bracket h with ⟨err, _, heq⟩ | ⟨t₁, rfl, hbody⟩
  · simp at heq
  · obtain ⟨t₂, t₃, outcome, rfl, hsubmit, hdone⟩ := Program.Admits.of_bind hbody
    obtain ⟨rfl, heq⟩ := Program.Admits.of_done hdone
    obtain rfl : outcome = .ok signatures := (Prod.mk.inj heq).1
    obtain ⟨reply, t₄, rfl, hsent⟩ := Action.of_admits_request_bind rfl hsubmit
    obtain ⟨items, hreply, hlift⟩ := Action.of_admits_lift_bind hsent
    obtain ⟨_, hcollect⟩ := Action.of_admits_lift hlift
    rcases reply with err | items'
    · simp at hreply
    · obtain rfl : items' = items := Outcome.ok.inj hreply
      exact ⟨items', by simp, Outcome.collect_eq_ok_iff.mp hcollect⟩

end Operations

/-- The keys of each server, under the ids of both halves. -/
abbrev Vaults (Server : Type) := Server → UniqueIdentifier → Option HsmKey

variable {Server : Type}

def Keeps (v v' : Vaults Server) : Prop :=
  ∀ server id key, v server id = some key → v' server id = some key

theorem Keeps.refl (v : Vaults Server) : Keeps v v := fun _ _ _ h => h

theorem Keeps.trans {v v' v'' : Vaults Server} (h : Keeps v v') (h' : Keeps v' v'') :
    Keeps v v'' :=
  fun server id key hkey => h' server id key (h server id key hkey)

variable (schemes : Schemes) (reach : ConnPool → Server)

/-- The signature is one with the key that the request names. -/
def Answers (keys : UniqueIdentifier → Option HsmKey) (request : RequestPayload)
    (signed : SignResponsePayload) : Prop :=
  ∀ id parameters data, request = .Sign (some id) (some parameters) data →
    ∃ key, keys id = some key ∧ Signs schemes parameters data signed.signatureData key

/-- What an answer says about the keys of a server is so. Errors and answers of the wrong
kind say nothing. -/
structure Explained (e : Exchange) (v : Vaults Server) : Prop where
  /-- Both ids name one key, of the type that was asked for. -/
  created : ∀ pool commonAttrs privateKeyAttrs publicKeyAttrs payload,
    e = ⟨.doRequestPayload pool
        (.CreateKeyPair (some commonAttrs) privateKeyAttrs publicKeyAttrs),
      .ok (.ok (.CreateKeyPair payload))⟩ →
    ∃ key, v (reach pool) payload.privateKeyUniqueIdentifier = some key ∧
      v (reach pool) payload.publicKeyUniqueIdentifier = some key ∧
      ∀ algorithm, .CryptographicAlgorithm algorithm ∈ commonAttrs →
        key.cryptographicAlgorithm = algorithm
  published : ∀ pool id object, e = ⟨.getKey pool id, .ok object⟩ →
    ∃ key, v (reach pool) id = some key ∧ Publishes key object
  signed : ∀ pool request signed,
    e = ⟨.doRequestPayload pool request, .ok (.ok (.Sign signed))⟩ →
    Answers schemes (v (reach pool)) request signed
  /-- The items of a batch are answered in their order. -/
  signedBatch : ∀ pool queue items, e = ⟨.doRequestBatch pool queue, .ok items⟩ →
    List.Forall₂ (fun item res => ∀ id signed, res = .ok ⟨id, some (.Sign signed)⟩ →
      Answers schemes (v (reach pool)) item.payload signed) queue items

/-- Servers that never let an id name another key and answer what is so. Apart from that
they do what they like, and so do connections and other clients. -/
def Truthful : Environment Call Reply (Vaults Server) :=
  fun v call reply v' => Keeps v v' ∧ Explained schemes reach ⟨call, reply⟩ v'

variable {schemes reach}

theorem Answers.mono {keys keys' : UniqueIdentifier → Option HsmKey} {request : RequestPayload}
    {signed : SignResponsePayload} (h : Answers schemes keys request signed)
    (hkeys : ∀ id key, keys id = some key → keys' id = some key) :
    Answers schemes keys' request signed := by
  intro id parameters data hrequest
  obtain ⟨key, hkey, hsigns⟩ := h id parameters data hrequest
  exact ⟨key, hkeys id key hkey, hsigns⟩

theorem Explained.mono {e : Exchange} {v v' : Vaults Server} (h : Explained schemes reach e v)
    (hkeeps : Keeps v v') : Explained schemes reach e v' where
  created pool commonAttrs privateKeyAttrs publicKeyAttrs payload he := by
    obtain ⟨key, hprivate, hpublic, htype⟩ := h.created _ _ _ _ _ he
    exact ⟨key, hkeeps _ _ _ hprivate, hkeeps _ _ _ hpublic, htype⟩
  published pool id object he := by
    obtain ⟨key, hkey, hpublishes⟩ := h.published _ _ _ he
    exact ⟨key, hkeeps _ _ _ hkey, hpublishes⟩
  signed pool request signed he := (h.signed _ _ _ he).mono (hkeeps _)
  signedBatch pool queue items he :=
    (h.signedBatch _ _ _ he).imp fun _ _ hitem id signed hres =>
      (hitem id signed hres).mono (hkeeps _)

section Runs

variable {crates : Crates} {ι : Type} [DecidableEq ι] {v₀ : Vaults Server}
  {t : List (Label (api crates) ι)} {sys : System (api crates) ι (Vaults Server)}

/-- Some operation has returned the key pair. -/
inductive Loaded (t : List (Label (api crates) ι)) (keyPair : KeyPair) : Prop
  | generated {i : ι} {publicKeyName privateKeyName : String} {params : GenerateParams}
      {flags : UInt16} {pool : ConnPool}
      (h : .returned i (ApiCall.generate publicKeyName privateKeyName params flags pool)
        (Outcome.ok keyPair) ∈ t) : Loaded t keyPair
  | fromMetadata {i : ι} {algorithm : SecurityAlgorithm} {flags : UInt16}
      {privateKeyId publicKeyId : String} {pool : ConnPool}
      (h : .returned i (ApiCall.fromMetadata algorithm flags privateKeyId publicKeyId pool)
        (Outcome.ok keyPair) ∈ t) : Loaded t keyPair
  | fromUrls {i : ι} {privKeyUrl pubKeyUrl : KeyUrl} {pool : ConnPool}
      (h : .returned i (ApiCall.fromUrls privKeyUrl pubKeyUrl pool) (Outcome.ok keyPair) ∈ t) :
      Loaded t keyPair

/-- The two ids name the halves of one key, of the type that the algorithm is for. -/
def Paired (reach : ConnPool → Server) (v : Vaults Server) (keyPair : KeyPair) : Prop :=
  ∃ key, v (reach keyPair.connPool) keyPair.privateKeyId = some key ∧
    v (reach keyPair.connPool) keyPair.publicKeyId = some key ∧ Suits keyPair.algorithm key

omit [DecidableEq ι] in
theorem Loaded.mono {t t' : List (Label (api crates) ι)} {keyPair : KeyPair} (h : Loaded t keyPair)
    (hsub : ∀ l ∈ t, l ∈ t') : Loaded t' keyPair := by
  cases h with
  | generated h => exact .generated (hsub _ h)
  | fromMetadata h => exact .fromMetadata (hsub _ h)
  | fromUrls h => exact .fromUrls (hsub _ h)

theorem Paired.mono {v v' : Vaults Server} {keyPair : KeyPair} (h : Paired reach v keyPair)
    (hkeeps : Keeps v v') : Paired reach v' keyPair := by
  obtain ⟨key, hprivate, hpublic, hsuits⟩ := h
  exact ⟨key, hkeeps _ _ _ hprivate, hkeeps _ _ _ hpublic, hsuits⟩

theorem explained_of_exchanged (hrun : Runs (Truthful schemes reach) v₀ t sys) {i : ι}
    {operation : ApiCall} {e : Exchange} (he : .exchanged i operation e ∈ t) :
    Explained schemes reach e sys.state :=
  hrun.explained (fun step => step.2) (fun step h => h.mono step.1) he

theorem paired_of_generated (hrun : Runs (Truthful schemes reach) v₀ t sys) {i : ι}
    {publicKeyName privateKeyName : String} {params : GenerateParams} {flags : UInt16}
    {pool : ConnPool} {keyPair : KeyPair}
    (h : .returned i (ApiCall.generate publicKeyName privateKeyName params flags pool)
      (Outcome.ok keyPair) ∈ t) :
    Paired reach sys.state keyPair := by
  obtain ⟨exchanged, hadmits, hevents⟩ := hrun.admits_of_returned h
  obtain ⟨⟨algInfo, commonAttrs, _, _, halg, hasked, hcreated⟩, _⟩ := created_of_generate hadmits
  obtain ⟨key, hprivate, hpublic, htype⟩ :=
    (explained_of_exchanged hrun (hevents _ hcreated)).created _ _ _ _ _ rfl
  exact ⟨key, hprivate, hpublic, algInfo, halg, htype _ hasked⟩

/-- However a key pair was loaded, its public key was fetched from its server. -/
theorem published_of_loaded (hrun : Runs (Truthful schemes reach) v₀ t sys) {keyPair : KeyPair}
    (h : Loaded t keyPair) :
    ∃ key object publicKey, sys.state (reach keyPair.connPool) keyPair.publicKeyId = some key ∧
      Publishes key object ∧ Holds crates keyPair.algorithm object publicKey ∧
      Dnskey.new keyPair.flags 3 keyPair.algorithm publicKey = some keyPair.dnskey := by
  obtain ⟨i, operation, exchanged, ⟨object, publicKey, hget, holds, hdnskey⟩, hevents⟩ :
      ∃ (i : ι) (operation : ApiCall) (exchanged : List Exchange),
        Fetched crates exchanged keyPair ∧ ∀ e ∈ exchanged, .exchanged i operation e ∈ t := by
    cases h with
    | generated h =>
        obtain ⟨exchanged, hadmits, hevents⟩ := hrun.admits_of_returned h
        exact ⟨_, _, exchanged, (created_of_generate hadmits).2, hevents⟩
    | fromMetadata h =>
        obtain ⟨exchanged, hadmits, hevents⟩ := hrun.admits_of_returned h
        exact ⟨_, _, exchanged, (fetched_of_fromMetadata hadmits).1, hevents⟩
    | fromUrls h =>
        obtain ⟨exchanged, hadmits, hevents⟩ := hrun.admits_of_returned h
        exact ⟨_, _, exchanged, (fetched_of_fromUrls hadmits).1, hevents⟩
  obtain ⟨key, hkey, hpublishes⟩ :=
    (explained_of_exchanged hrun (hevents _ hget)).published _ _ _ rfl
  exact ⟨key, object, publicKey, hkey, hpublishes, holds, hdnskey⟩

/-- Two key pairs that sign with one private key. -/
structure SameKey (reach : ConnPool → Server) (keyPair keyPair' : KeyPair) : Prop where
  algorithm : keyPair.algorithm = keyPair'.algorithm
  privateKeyId : keyPair.privateKeyId = keyPair'.privateKeyId
  server : reach keyPair.connPool = reach keyPair'.connPool

/-- The record has the public half of the key that the key pair signs with. -/
def Recorded (reach : ConnPool → Server) (v : Vaults Server) (keyPair : KeyPair)
    (record : Dnskey) : Prop :=
  ∃ key publicKey, v (reach keyPair.connPool) keyPair.privateKeyId = some key ∧
    Encodes keyPair.algorithm key publicKey ∧
    Dnskey.new keyPair.flags 3 keyPair.algorithm publicKey = some record

theorem recorded_of_loaded (hcrates : crates.FramesRsa)
    (hrun : Runs (Truthful schemes reach) v₀ t sys) {keyPair : KeyPair}
    (hloaded : Loaded t keyPair) (hpaired : Paired reach sys.state keyPair) :
    Recorded reach sys.state keyPair keyPair.dnskey := by
  obtain ⟨key, hprivate, hpublic, hsuits⟩ := hpaired
  obtain ⟨key', object, publicKey, hkey', hpublishes, holds, hdnskey⟩ :=
    published_of_loaded hrun hloaded
  obtain rfl : key = key' := Option.some.inj (hpublic.symm.trans hkey')
  exact ⟨key, publicKey, hprivate,
    encodes_of_publishes hcrates hsuits hpublishes holds, hdnskey⟩

/-- A signature that answers a request for the private key is one for the record. -/
theorem validates_of_answers {v : Vaults Server} {keyPair : KeyPair} {record : Dnskey}
    (hrecorded : Recorded reach v keyPair record) {algInfo : AlgorithmInfo}
    (halg : getAlgInfo keyPair.algorithm = some algInfo) {data : Octets}
    {signed : SignResponsePayload} {signature : Signature}
    (hanswers : Answers schemes (v (reach keyPair.connPool))
      (.Sign (some keyPair.privateKeyId) (some (signParameters algInfo)) data) signed)
    (hparse : algInfo.sigParser signed.signatureData = .ok signature) :
    Validates schemes record data signature := by
  obtain ⟨key, publicKey, hprivate, hencodes, hrecord⟩ := hrecorded
  obtain ⟨signer, hsigner, hsigns⟩ := hanswers _ _ _ rfl
  obtain rfl : key = signer := Option.some.inj (hprivate.symm.trans hsigner)
  obtain ⟨_, hprotocol, halgorithm, hoctets⟩ := Dnskey.of_new hrecord
  refine ⟨hprotocol, ?_⟩
  rw [halgorithm, hoctets]
  exact validates_of_signs hencodes halg hsigns hparse

theorem validates_of_signRaw (hrun : Runs (Truthful schemes reach) v₀ t sys)
    {keyPair signer : KeyPair} {record : Dnskey}
    (hrecorded : Recorded reach sys.state keyPair record)
    (hsame : SameKey reach signer keyPair) {i : ι} {data : Octets} {signature : Signature}
    (h : .returned i (ApiCall.signRaw signer data) (Outcome.ok signature) ∈ t) :
    Validates schemes record data signature := by
  obtain ⟨exchanged, hadmits, hevents⟩ := hrun.admits_of_returned h
  obtain ⟨algInfo, signed, halg, hanswered, hparse⟩ := signed_of_signRaw hadmits
  have hanswers := (explained_of_exchanged hrun (hevents _ hanswered)).signed _ _ _ rfl
  rw [hsame.privateKeyId, hsame.server] at hanswers
  rw [hsame.algorithm] at halg
  exact validates_of_answers hrecorded halg hanswers hparse

/-- What a key pair signs holds under the DNSKEY record of every key pair that was loaded
for its two keys, whichever came first and whoever loaded it. A generated key pair is one
of these. -/
theorem signatures_validate (hcrates : crates.FramesRsa)
    (hrun : Runs (Truthful schemes reach) v₀ t sys) :
    (∀ i publicKeyName privateKeyName params flags pool keyPair,
      .returned i (ApiCall.generate publicKeyName privateKeyName params flags pool)
        (Outcome.ok keyPair) ∈ t → Paired reach sys.state keyPair) ∧
    ∀ keyPair, Loaded t keyPair → Paired reach sys.state keyPair →
      ∀ i signer data signature, SameKey reach signer keyPair →
        .returned i (ApiCall.signRaw signer data) (Outcome.ok signature) ∈ t →
        Validates schemes keyPair.dnskey data signature :=
  ⟨fun _ _ _ _ _ _ _ h => paired_of_generated hrun h,
    fun _ hloaded hpaired _ _ _ _ hsame h =>
      validates_of_signRaw hrun (recorded_of_loaded hcrates hrun hloaded hpaired) hsame h⟩

theorem enqueued_of_supported {entries : List SignItem}
    (h : ∀ entry ∈ entries, Supported entry.keyPair) :
    List.Forall₂ (fun entry item => entry ∈ entries ∧ IsBatchItem entry item)
      entries (enqueueAll entries).items :=
  (forall₂_congr_of_mem fun _ hmem _ => (and_iff_right hmem).symm).mp (enqueueAll_items h)

theorem validates_of_signRawSubmitQueue
    (hrun : Runs (Truthful schemes reach) v₀ t sys) {i : ι} {submitter : KeyPair}
    {entries : List SignItem} {signatures : List Signature} {rest : SignQueue}
    (hentries : ∀ entry ∈ entries, Recorded reach sys.state entry.keyPair entry.keyPair.dnskey ∧
      entry.keyPair.algorithm = submitter.algorithm ∧
      reach entry.keyPair.connPool = reach submitter.connPool)
    (hsubmitted : .returned i (ApiCall.signRawSubmitQueue submitter (enqueueAll entries))
      (Outcome.ok signatures, rest) ∈ t) :
    List.Forall₂ (fun entry signature =>
      Validates schemes entry.keyPair.dnskey entry.data signature) entries signatures := by
  have hqueue := enqueued_of_supported fun entry hmem => by
    obtain ⟨⟨_, _, _, hencodes, _⟩, _⟩ := hentries entry hmem
    exact Option.isSome_iff_exists.mpr (algInfo_of_matches (matches_of_encodes hencodes))
  obtain ⟨exchanged, hadmits, hevents⟩ := hrun.admits_of_returned hsubmitted
  obtain ⟨items, hanswered, hsignatures⟩ := answered_of_signRawSubmitQueue hadmits
  have hanswers := (explained_of_exchanged hrun (hevents _ hanswered)).signedBatch _ _ _ rfl
  refine (forall₂_comp hqueue (forall₂_comp hanswers hsignatures)).imp ?_
  rintro entry signature ⟨item, ⟨hmem, _, hpre⟩, res, hitem, hsigns⟩
  obtain ⟨hrecorded, halgorithm, hserver⟩ := hentries entry hmem
  obtain ⟨id, signed, algInfo, hres, halg, hparse⟩ := signBatchItem_eq_ok_iff.mp hsigns
  rw [← halgorithm] at halg
  have hrequest := Outcome.ok.inj (hpre.symm.trans (signPre_of_algInfo halg entry.data))
  have hitem := hitem id signed hres
  rw [hrequest, ← hserver] at hitem
  exact validates_of_answers hrecorded halg hitem hparse

/-- A batch of data that was enqueued with any key pairs of one algorithm and one server:
the signatures come in the order of the queue, and each holds under the DNSKEY record of
the key pair of its entry, whoever submits the queue. -/
theorem batches_validate (hcrates : crates.FramesRsa)
    (hrun : Runs (Truthful schemes reach) v₀ t sys) {i : ι} {submitter : KeyPair}
    {entries : List SignItem} {signatures : List Signature} {rest : SignQueue}
    (hentries : ∀ entry ∈ entries, Loaded t entry.keyPair ∧ Paired reach sys.state entry.keyPair ∧
      entry.keyPair.algorithm = submitter.algorithm ∧
      reach entry.keyPair.connPool = reach submitter.connPool)
    (hsubmitted : .returned i (ApiCall.signRawSubmitQueue submitter (enqueueAll entries))
      (Outcome.ok signatures, rest) ∈ t) :
    List.Forall₂ (fun entry signature =>
      Validates schemes entry.keyPair.dnskey entry.data signature) entries signatures := by
  refine validates_of_signRawSubmitQueue hrun (fun entry hmem => ?_) hsubmitted
  obtain ⟨hloaded, hpaired, hsame⟩ := hentries entry hmem
  exact ⟨recorded_of_loaded hcrates hrun hloaded hpaired, hsame⟩

end Runs

def samplePoint : OctetArray 32 := ⟨List.replicate 32 1, List.length_replicate ..⟩

/-- The data, cut or padded to the length of a signature. -/
def sampleSign (data : Octets) : Octets := (data ++ List.replicate 64 0).take 64

def sampleSchemes : Schemes where
  rsa _ _ _ _ _ := False
  ecdsa _ _ _ _ _ _ _ := False
  ed25519 point data signature := point = samplePoint.val ∧ signature = sampleSign data
  ed448 _ _ _ := False

def sampleVaults : Vaults Unit := fun _ id =>
  if id = "private" ∨ id = "public" then some (.ed25519 samplePoint) else none

def sampleAnswer : RequestPayload → Except NetError ResponsePayload
  | .CreateKeyPair common _ _ =>
      if common = some [.CryptographicAlgorithm .Ed25519, .CryptographicLength 256] then
        .ok (.CreateKeyPair ⟨"private", "public"⟩)
      else .error (.ServerError "not supported")
  | .Activate _ => .ok (.Activate "private")
  | .Sign id _ data =>
      if id = some "private" then .ok (.Sign ⟨sampleSign data⟩)
      else .error (.ServerError "no such key")

def sampleReplies : (call : Call) → Reply call
  | .connect _ => .ok ()
  | .release _ => ()
  | .query _ => .ok ⟨some [⟨edxxxExtension⟩]⟩
  | .doRequestPayload _ request => .ok (sampleAnswer request)
  | .doRequestBatch _ queue => .ok (queue.map fun item =>
      (sampleAnswer item.payload).map fun payload => ⟨item.uniqueBatchItemId, some payload⟩)
  | .getKey _ id => if id = "public" then .ok willingKey else .error (.ServerError "no such key")
  | .revokeKey .. => .error (.ServerError "not supported")
  | .destroyKey .. => .error (.ServerError "not supported")

theorem answers_sampleAnswer {request : RequestPayload} {signed : SignResponsePayload}
    (h : sampleAnswer request = .ok (.Sign signed)) :
    Answers sampleSchemes (sampleVaults ()) request signed := by
  rintro id parameters data rfl
  rw [sampleAnswer] at h
  split at h
  · rename_i hid
    obtain rfl : id = "private" := Option.some.inj hid
    obtain rfl : SignResponsePayload.mk (sampleSign data) = signed := by simpa using h
    exact ⟨.ed25519 samplePoint, rfl, fun _ => ⟨rfl, rfl⟩⟩
  · simp at h

theorem sampleReplies_truthful (call : Call) :
    Truthful sampleSchemes (fun _ => ()) sampleVaults call (sampleReplies call) sampleVaults := by
  refine ⟨fun _ _ _ h => h, ?_, ?_, ?_, ?_⟩
  · rintro pool commonAttrs privateKeyAttrs publicKeyAttrs payload he
    obtain ⟨rfl, he⟩ := Event.mk.inj he
    have hanswer := Except.ok.inj (eq_of_heq he)
    rw [sampleAnswer] at hanswer
    split at hanswer
    · rename_i hattrs
      obtain rfl := Option.some.inj hattrs
      obtain rfl : CreateKeyPairResponsePayload.mk "private" "public" = payload := by
        simpa using hanswer
      refine ⟨.ed25519 samplePoint, rfl, rfl, fun algorithm hmem => ?_⟩
      simpa [HsmKey.cryptographicAlgorithm, eq_comm] using hmem
    · simp at hanswer
  · rintro pool id object he
    obtain ⟨rfl, he⟩ := Event.mk.inj he
    have hobject := eq_of_heq he
    rw [sampleReplies] at hobject
    split at hobject
    · rename_i hid
      subst hid
      obtain rfl := Except.ok.inj hobject
      exact ⟨.ed25519 samplePoint, rfl, .ed25519 rfl⟩
    · simp at hobject
  · rintro pool request signed he
    obtain ⟨rfl, he⟩ := Event.mk.inj he
    exact answers_sampleAnswer (Except.ok.inj (eq_of_heq he))
  · rintro pool queue items he
    obtain ⟨rfl, he⟩ := Event.mk.inj he
    obtain rfl := Except.ok.inj (eq_of_heq he)
    rw [List.forall₂_map_right_iff, List.forall₂_same]
    intro item _ id signed hres
    apply answers_sampleAnswer
    cases hanswer : sampleAnswer item.payload with
    | error err => simp [hanswer, Except.map] at hres
    | ok payload =>
        obtain ⟨_, rfl⟩ : item.uniqueBatchItemId = id ∧ payload = .Sign signed := by
          simpa [hanswer, Except.map] using hres
        rfl

def sampleLabels (i : Bool) (operation : ApiCall) : List (Label (api sampleCrates) Bool) :=
  Label.alone (fun v call => (sampleReplies call, v)) i operation sampleVaults

theorem returned_mem_sampleLabels (i : Bool) (operation : ApiCall) :
    .returned i operation (((api sampleCrates).program operation).run
      (fun v call => (sampleReplies call, v)) sampleVaults).1 ∈ sampleLabels i operation :=
  Label.returned_mem_alone (I := api sampleCrates) i operation sampleVaults

def sampleGeneration : ApiCall := .generate "public" "private" .Ed25519 257 samplePool

def sampleSigning : ApiCall := .signRaw willingKeyPair [1, 2, 3]

def sampleEntries : List SignItem :=
  [⟨willingKeyPair, [7], [1, 2]⟩, ⟨willingKeyPair, [8], [3]⟩]

def sampleSubmission : ApiCall := .signRawSubmitQueue willingKeyPair (enqueueAll sampleEntries)

/-- One caller generates a key pair; the other one signs with it, and then in a batch. -/
def sampleRun : List (Label (api sampleCrates) Bool) :=
  sampleLabels true sampleGeneration ++ sampleLabels false sampleSigning ++
    sampleLabels false sampleSubmission

theorem runs_sampleRun : Runs (Truthful sampleSchemes fun _ => ()) sampleVaults sampleRun
    ⟨fun _ => none, sampleVaults⟩ := by
  have hstart : Runs (Truthful sampleSchemes fun _ => ()) sampleVaults
    ([] : List (Label (api sampleCrates) Bool)) ⟨fun _ => none, sampleVaults⟩ := .start
  have hgenerated := hstart.trace_of_fixed (i := true) sampleReplies_truthful rfl sampleGeneration
  have hsigned := hgenerated.trace_of_fixed (i := false) sampleReplies_truthful rfl sampleSigning
  exact hsigned.trace_of_fixed (i := false) sampleReplies_truthful rfl sampleSubmission

theorem generated_in_sampleRun :
    .returned true sampleGeneration (Outcome.ok willingKeyPair) ∈ sampleRun :=
  List.mem_append_left _ (List.mem_append_left _
    (returned_mem_sampleLabels true sampleGeneration))

def sampleSignature (data : Octets) : Signature :=
  .Ed25519 ⟨sampleSign data, by simp [sampleSign]⟩

theorem signed_in_sampleRun :
    .returned false sampleSigning (Outcome.ok (sampleSignature [1, 2, 3])) ∈ sampleRun :=
  List.mem_append_left _ (List.mem_append_right _
    (returned_mem_sampleLabels false sampleSigning))

theorem sample_signature_validates :
    Validates sampleSchemes willingKeyPair.dnskey [1, 2, 3] (sampleSignature [1, 2, 3]) := by
  obtain ⟨hpaired, hvalidates⟩ := signatures_validate sampleCrates_framesRsa runs_sampleRun
  exact hvalidates willingKeyPair (.generated generated_in_sampleRun)
    (hpaired _ _ _ _ _ _ _ generated_in_sampleRun) false willingKeyPair [1, 2, 3] _
    ⟨rfl, rfl, rfl⟩ signed_in_sampleRun

theorem submitted_in_sampleRun : .returned false sampleSubmission
    (Outcome.ok [sampleSignature [1, 2], sampleSignature [3]], SignQueue.new) ∈ sampleRun :=
  List.mem_append_right _
    (returned_mem_sampleLabels false sampleSubmission)

theorem keyPair_of_mem_sampleEntries {entry : SignItem} (h : entry ∈ sampleEntries) :
    entry.keyPair = willingKeyPair := by
  rcases List.mem_cons.mp h with rfl | h
  · rfl
  · rw [List.mem_singleton.mp h]

theorem sample_batch_validates :
    List.Forall₂ (fun entry signature =>
      Validates sampleSchemes entry.keyPair.dnskey entry.data signature) sampleEntries
      [sampleSignature [1, 2], sampleSignature [3]] := by
  have hpaired := paired_of_generated runs_sampleRun generated_in_sampleRun
  refine batches_validate sampleCrates_framesRsa runs_sampleRun ?_ submitted_in_sampleRun
  intro entry hmem
  rw [keyPair_of_mem_sampleEntries hmem]
  exact ⟨.generated generated_in_sampleRun, hpaired, rfl, rfl⟩

end DomainKmip.ValidSignatures
