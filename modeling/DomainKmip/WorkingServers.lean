import DomainKmip.ValidSignatures

namespace DomainKmip.WorkingServers

open DomainKmip.Library.BigEndian
open DomainKmip.Library.RustResult
open DomainKmip.Library.Interaction
open DomainKmip.Library.Concurrency
open DomainKmip.Library.ListRelation
open DomainKmip.Domain
open DomainKmip.Kmip
open DomainKmip.Dependencies
open DomainKmip.Errors
open DomainKmip.Algorithms
open DomainKmip.Client
open DomainKmip.PublicKeys
open DomainKmip.KeyPairs
open DomainKmip.SigningSafety
open DomainKmip.BatchSigning
open DomainKmip.Generate
open DomainKmip.GenerateSafety
open DomainKmip.KeyLoading
open DomainKmip.Validators
open DomainKmip.HsmKeys
open DomainKmip.Operations
open DomainKmip.ValidSignatures

/-- The response names the format that its octets are in. -/
def Labelled : HsmKey → ManagedObject → Prop
  | .ec .., .PublicKey keyBlock => keyBlock.keyFormatType = .X509
  | .ed25519 _, .PublicKey keyBlock => keyBlock.keyFormatType = .Raw
  | .ed448 _, .PublicKey keyBlock => keyBlock.keyFormatType = .Raw
  | _, _ => True

section Keys

variable {crates : Crates} {algorithm : SecurityAlgorithm} {key : HsmKey} {object : ManagedObject}

/-- A key that is handed out in a format that is named can be loaded. -/
theorem holds_of_publishes (hcrates : crates.FramesRsa) (hmatches : Matches algorithm key)
    (hpublishes : Publishes key object) (hlabelled : Labelled key object) :
    ∃ publicKey, Holds crates algorithm object publicKey ∧ publicKey.length ≤ 65531 := by
  cases hmatches with
  | rsa halg =>
      cases hpublishes with
      | rsa hobject =>
          exact ⟨_, holds_of_rsa hcrates halg hobject, length_rsaOctets_le _⟩
  | ec curve point =>
      cases hpublishes with
      | ec hmaterial =>
          obtain ⟨hx, hy⟩ := length_octets point
          have hlen : point.octets.length = 2 * coordLen curve := by
            rw [Point.octets, List.length_append, hx, hy]
            omega
          have hform : form (ecAlgorithm curve) .X509 =
              some (.ecX509 (curveOid curve) (coordLen curve)) := by
            cases curve <;> rfl
          rw [← hlabelled] at hform
          have hsmall : coordLen curve ≤ 48 := by cases curve <;> decide
          exact ⟨point.octets, .bytes hmaterial hform
            ⟨⟨_, [], spkiBits_octets point, rfl, (List.append_nil _).symm⟩, hlen⟩, by omega⟩
  | ed25519 point =>
      cases hpublishes with
      | ed25519 hmaterial =>
          exact ⟨point.val, .bytes (f := .raw) hmaterial (hlabelled.symm ▸ rfl) rfl,
            by rw [point.property]; decide⟩
  | ed448 point =>
      cases hpublishes with
      | ed448 hmaterial =>
          exact ⟨point.val, .bytes (f := .raw) hmaterial (hlabelled.symm ▸ rfl) rfl,
            by rw [point.property]; decide⟩

/-- EdDSA signatures have the length that their standard gives them. -/
structure Sized (schemes : Schemes) : Prop where
  ed25519 : ∀ point data signature, schemes.ed25519 point data signature → signature.length = 64
  ed448 : ∀ point data signature, schemes.ed448 point data signature → signature.length = 114

theorem parses_of_signs {schemes : Schemes} (hschemes : Sized schemes) {algInfo : AlgorithmInfo}
    {data octets : Octets} (hmatches : Matches algorithm key)
    (halg : getAlgInfo algorithm = some algInfo)
    (hsigns : Signs schemes (signParameters algInfo) data octets key) :
    ∃ signature, algInfo.sigParser octets = .ok signature := by
  cases hmatches with
  | rsa halgorithm =>
      rcases halgorithm with rfl | rfl
      · obtain rfl : ALG_RSASHA256 = algInfo := Option.some.inj halg
        exact ⟨_, rfl⟩
      · obtain rfl : ALG_RSASHA512 = algInfo := Option.some.inj halg
        exact ⟨_, rfl⟩
  | ec curve point =>
      cases curve with
      | P_256 =>
          obtain rfl : ALG_ECDSAP256SHA256 = algInfo := Option.some.inj halg
          obtain ⟨r, s, hr, hs, rfl, _⟩ := hsigns .SHA256 rfl
          obtain ⟨array, harray, _⟩ := parseX962_signatureValue hr hs
          exact ⟨.EcdsaP256Sha256 array, Outcome.bind_eq_ok_iff.mpr ⟨array, harray, rfl⟩⟩
      | P_384 =>
          obtain rfl : ALG_ECDSAP384SHA384 = algInfo := Option.some.inj halg
          obtain ⟨r, s, hr, hs, rfl, _⟩ := hsigns .SHA384 rfl
          obtain ⟨array, harray, _⟩ := parseX962_signatureValue hr hs
          exact ⟨.EcdsaP384Sha384 array, Outcome.bind_eq_ok_iff.mpr ⟨array, harray, rfl⟩⟩
  | ed25519 point =>
      obtain rfl : ALG_ED25519 = algInfo := Option.some.inj halg
      have hparse := parseRaw_of_length (hschemes.ed25519 _ _ _ (hsigns rfl))
      exact ⟨_, Outcome.bind_eq_ok_iff.mpr ⟨_, hparse, rfl⟩⟩
  | ed448 point =>
      obtain rfl : ALG_ED448 = algInfo := Option.some.inj halg
      have hparse := parseRaw_of_length (hschemes.ed448 _ _ _ (hsigns rfl))
      exact ⟨_, Outcome.bind_eq_ok_iff.mpr ⟨_, hparse, rfl⟩⟩

end Keys

def curveBits : RecommendedCurve → Int
  | .P_256 => 256
  | .P_384 => 384

/-- What the servers are there for: the keys that they make, and the ids of private keys. -/
structure Service (Server : Type) where
  makes : CryptographicAlgorithm → Int → Prop
  isPrivate : Server → UniqueIdentifier → Prop

variable {Server : Type} {schemes : Schemes} {reach : ConnPool → Server}
  {service : Service Server} {v v' : Vaults Server}

/-- The server has made a key of the algorithm, of the length if it is one on a curve. -/
structure Makes (reach : ConnPool → Server) (service : Service Server) (pool : ConnPool)
    (bits : Int) (reply : Except NetError (Except NetError ResponsePayload))
    (v : Vaults Server) (payload : CreateKeyPairResponsePayload) : Prop where
  confirmed : reply = .ok (.ok (.CreateKeyPair payload))
  isPrivate : service.isPrivate (reach pool) payload.privateKeyUniqueIdentifier
  isPublic : ¬ service.isPrivate (reach pool) payload.publicKeyUniqueIdentifier
  curve : ∀ curve point, v (reach pool) payload.publicKeyUniqueIdentifier =
    some (.ec curve point) → bits = curveBits curve

variable (reach service) in
/-- The answers of servers that do what they are there for. A request for a key on a curve
may be refused as long as it does not name the curve. -/
structure Serves (e : Exchange) (v : Vaults Server) : Prop where
  connected : ∀ pool reply, e = ⟨.connect pool, reply⟩ → reply = .ok ()
  advertised : ∀ pool reply bits, e = ⟨.query pool, reply⟩ →
    service.makes .Ed25519 bits ∨ service.makes .Ed448 bits →
    ∃ response, reply = .ok response ∧ kmip1xEdxxxSupported response = true
  created : ∀ pool algorithm bits privateKeyAttrs publicKeyAttrs reply,
    e = ⟨.doRequestPayload pool (.CreateKeyPair
      (some [.CryptographicAlgorithm algorithm, .CryptographicLength bits]) privateKeyAttrs
        publicKeyAttrs), reply⟩ → service.makes algorithm bits →
    (∃ payload, Makes reach service pool bits reply v payload) ∨
      algorithm = .ECDSA ∧ ∃ err, reply = .ok (.error (.ServerError err))
  createdOnCurve : ∀ pool curve privateKeyAttrs publicKeyAttrs reply,
    e = ⟨.doRequestPayload pool (.CreateKeyPair
      (some [.CryptographicAlgorithm .ECDSA, .CryptographicLength (curveBits curve),
        curveAttribute curve]) privateKeyAttrs publicKeyAttrs), reply⟩ →
    service.makes .ECDSA (curveBits curve) →
    ∃ payload, Makes reach service pool (curveBits curve) reply v payload
  fetched : ∀ pool id reply key, e = ⟨.getKey pool id, reply⟩ →
    ¬ service.isPrivate (reach pool) id → v (reach pool) id = some key →
    ∃ object, reply = .ok object ∧ Labelled key object
  activated : ∀ pool id reply, e = ⟨.doRequestPayload pool (.Activate (some id)), reply⟩ →
    service.isPrivate (reach pool) id → ∃ id', reply = .ok (.ok (.Activate id'))
  signed : ∀ pool id parameters data reply key,
    e = ⟨.doRequestPayload pool (.Sign (some id) (some parameters) data), reply⟩ →
    service.isPrivate (reach pool) id → v (reach pool) id = some key →
    ∃ signed, reply = .ok (.ok (.Sign signed))
  signedBatch : ∀ pool queue reply, e = ⟨.doRequestBatch pool queue, reply⟩ →
    (∀ item ∈ queue, ∃ id parameters data key,
      item.payload = .Sign (some id) (some parameters) data ∧
      service.isPrivate (reach pool) id ∧ v (reach pool) id = some key) →
    ∃ items, reply = .ok items ∧ ∀ res ∈ items, ∃ id signed, res = .ok ⟨id, some (.Sign signed)⟩

variable (schemes reach service) in
def Working : Environment Call Reply (Vaults Server) :=
  fun v call reply v' =>
    Truthful schemes reach v call reply v' ∧ Serves reach service ⟨call, reply⟩ v'

theorem keeps_of_later (h : Later (Working schemes reach service) v v') : Keeps v v' := by
  induction h with
  | refl => exact .refl v
  | tail _ step ih =>
      obtain ⟨c, r, step⟩ := step
      exact ih.trans step.1.1

theorem working_of_disturbed {c : Call} {r : Reply c}
    (h : Disturbed (Working schemes reach service) v c r v') :
    Keeps v v' ∧ Explained schemes reach ⟨c, r⟩ v' ∧ Serves reach service ⟨c, r⟩ v' := by
  obtain ⟨v₁, hlater, hstep⟩ := h
  exact ⟨(keeps_of_later hlater).trans hstep.1.1, hstep.1.2, hstep.2⟩

section Rules

variable {ε ε' α β : Type} {post : α → Vaults Server → Prop}

variable (schemes reach service) in
/-- The action returns `Ok`, and what it returns is so of the keys that there are then. -/
def Delivers (post : α → Vaults Server → Prop) (x : Action ε α) (v : Vaults Server) : Prop :=
  x.Meets (Disturbed (Working schemes reach service)) (fun _ _ => True)
    (fun o v' => Keeps v v' ∧ ∃ a, o = .ok a ∧ post a v') v

theorem delivers_lift {x : Outcome ε α} {a : α} (hx : x = .ok a) (ha : post a v) :
    Delivers schemes reach service post (Action.lift x) v :=
  ⟨.refl v, a, hx, ha⟩

theorem Delivers.bind {next : β → Vaults Server → Prop} {x : Action ε β} {f : β → Action ε α}
    (hx : Delivers schemes reach service next x v)
    (hf : ∀ b v', Keeps v v' → next b v' → Delivers schemes reach service post (f b) v') :
    Delivers schemes reach service post (x >>= f) v := by
  apply Action.meets_bind.mpr
  apply Action.Meets.mono hx
  rintro o v' ⟨hkeeps, b, rfl, hb⟩
  apply Action.Meets.mono (hf b v' hkeeps hb)
  rintro o v'' ⟨hkeeps', hpost⟩
  exact ⟨hkeeps.trans hkeeps', hpost⟩

theorem delivers_lift_bind {x : Outcome ε β} {b : β} {f : β → Action ε α} (hx : x = .ok b)
    (hf : Delivers schemes reach service post (f b) v) :
    Delivers schemes reach service post (Action.lift x >>= f) v := by
  subst hx
  exact hf

theorem Delivers.mapErr {x : Action ε α} (f : ε → ε')
    (hx : Delivers schemes reach service post x v) :
    Delivers schemes reach service post (x.mapErr f) v := by
  apply Action.meets_mapErr.mpr
  apply Action.Meets.mono hx
  rintro o v' ⟨hkeeps, a, rfl, ha⟩
  exact ⟨hkeeps, a, rfl, ha⟩

/-- After one of the client's methods. -/
theorem Delivers.request {call : Call} {x : Action ε (Reply call)} {f : Reply call → Action ε α}
    (hx : x.program = .call call fun reply => .done (.ok reply))
    (hf : ∀ reply v', Keeps v v' → Explained schemes reach ⟨call, reply⟩ v' →
      Serves reach service ⟨call, reply⟩ v' → Delivers schemes reach service post (f reply) v') :
    Delivers schemes reach service post (x >>= f) v := by
  have hsend : Delivers schemes reach service (fun reply v' =>
      Explained schemes reach ⟨call, reply⟩ v' ∧ Serves reach service ⟨call, reply⟩ v') x v := by
    rw [Delivers, Action.Meets, hx]
    refine ⟨trivial, fun reply v' hstep => ?_⟩
    obtain ⟨hkeeps, hexplained, hserves⟩ := working_of_disturbed hstep
    exact ⟨hkeeps, reply, rfl, hexplained, hserves⟩
  exact hsend.bind fun reply v' hkeeps h => hf reply v' hkeeps h.1 h.2

theorem Delivers.withClient {pool : ConnPool} {onErr : KmipConnError → ε} {body : Action ε α}
    (hpost : ∀ a v' v'', Keeps v' v'' → post a v' → post a v'')
    (hbody : ∀ v', Keeps v v' → Delivers schemes reach service post body v') :
    Delivers schemes reach service post (Action.withClient pool onErr body) v := by
  refine Action.meets_withClient.mpr ⟨trivial, ?_, ?_⟩
  · intro err v' hstep
    have hconnected := (working_of_disturbed hstep).2.2.connected pool _ rfl
    simp at hconnected
  · intro v' hstep
    have hkeeps := (working_of_disturbed hstep).1
    apply Action.Meets.mono (hbody v' hkeeps)
    rintro o v'' ⟨hkeeps', a, rfl, ha⟩
    refine ⟨trivial, fun v₃ hstep' => ?_⟩
    have hkeeps'' := (working_of_disturbed hstep').1
    exact ⟨hkeeps.trans (hkeeps'.trans hkeeps''), a, rfl, hpost a v'' v₃ hkeeps'' ha⟩

end Rules

section Generating

variable {crates : Crates} {pool : ConnPool} {algorithm : SecurityAlgorithm} {key : HsmKey}

theorem fetch_delivers (hcrates : crates.FramesRsa) {id : UniqueIdentifier}
    (hpublic : ¬ service.isPrivate (reach pool) id) (hkey : v (reach pool) id = some key)
    (hmatches : Matches algorithm key) :
    Delivers schemes reach service (fun publicKey _ => publicKey.publicKey.length ≤ 65531)
      (forKeyIdAndDnssecAlgorithm crates id algorithm pool) v := by
  simp only [forKeyIdAndDnssecAlgorithm, Action.lift_bind_lift]
  refine Delivers.withClient (fun _ _ _ _ h => h) fun v₁ hkeeps => ?_
  refine Delivers.request rfl fun reply v₂ hkeeps' hexplained hserves => ?_
  have hkey' := hkeeps' _ _ _ (hkeeps _ _ _ hkey)
  obtain ⟨object, rfl, hlabelled⟩ := hserves.fetched pool id reply key rfl hpublic hkey'
  obtain ⟨published, hpublished, hpublishes⟩ := hexplained.published pool id object rfl
  obtain rfl : key = published := Option.some.inj (hkey'.symm.trans hpublished)
  obtain ⟨publicKey, holds, hlength⟩ := holds_of_publishes hcrates hmatches hpublishes hlabelled
  have hobject := (ofManagedObject_eq_ok_iff crates).mpr ⟨publicKey, holds, rfl⟩
  exact delivers_lift hobject hlength

theorem fromMetadata_delivers (hcrates : crates.FramesRsa) {publicKeyId : UniqueIdentifier}
    (hpublic : ¬ service.isPrivate (reach pool) publicKeyId)
    (hkey : v (reach pool) publicKeyId = some key) (hmatches : Matches algorithm key)
    (flags : UInt16) (privateKeyId : UniqueIdentifier) :
    Delivers schemes reach service (fun keyPair _ => keyPair.privateKeyId = privateKeyId ∧
        keyPair.connPool = pool)
      (fromMetadata crates algorithm flags privateKeyId publicKeyId pool) v := by
  rw [fromMetadata]
  refine Delivers.bind (Delivers.mapErr _ (fetch_delivers hcrates hpublic hkey hmatches))
    fun publicKey v' _ h => ?_
  obtain ⟨record, hrecord⟩ := dnskey_of_length h publicKey.algorithm flags
  exact delivers_lift_bind (Outcome.unwrap_eq_ok_iff.mpr hrecord) (delivers_lift rfl ⟨rfl, rfl⟩)

/-- The length that is asked for. -/
def keyLength : GenerateParams → Int
  | .RsaSha256 bits | .RsaSha512 bits => bits.toNat
  | .EcdsaP256Sha256 | .Ed25519 => 256
  | .EcdsaP384Sha384 => 384
  | .Ed448 => 456

/-- Keys of a length that the algorithm permits. -/
structure Offers (service : Service Server) (params : GenerateParams) : Prop where
  permitted : LengthPermitted params
  makes : service.makes (selectAlgorithm params).1.kmipCryptoAlg (keyLength params)

theorem requireEdxxxSupport_delivers {params : GenerateParams} (hoffers : Offers service params) :
    Delivers schemes reach service (fun _ _ => True)
      (requireEdxxxSupport crates params pool) v := by
  rw [requireEdxxxSupport]
  split
  · rename_i hedwards
    refine Delivers.request rfl fun reply v' _ _ hserves => ?_
    have hmakes : service.makes .Ed25519 (keyLength params) ∨
        service.makes .Ed448 (keyLength params) := by
      cases params with
      | Ed25519 => exact Or.inl hoffers.makes
      | Ed448 => exact Or.inr hoffers.makes
      | _ => simp [isEdwards] at hedwards
    obtain ⟨response, rfl, hsupported⟩ := hserves.advertised pool reply _ rfl hmakes
    refine delivers_lift_bind rfl ?_
    rw [if_pos hsupported]
    exact delivers_lift rfl trivial
  · exact delivers_lift rfl trivial

/-- The two ids name one key, which is as it was asked for. -/
structure Made (reach : ConnPool → Server) (service : Service Server) (pool : ConnPool)
    (algorithm : CryptographicAlgorithm) (bits : Int) (payload : CreateKeyPairResponsePayload)
    (v : Vaults Server) : Prop where
  isPrivate : service.isPrivate (reach pool) payload.privateKeyUniqueIdentifier
  isPublic : ¬ service.isPrivate (reach pool) payload.publicKeyUniqueIdentifier
  key : ∃ key, v (reach pool) payload.publicKeyUniqueIdentifier = some key ∧
    key.cryptographicAlgorithm = algorithm ∧
    ∀ curve point, key = .ec curve point → bits = curveBits curve

theorem made_of_makes {algorithm : CryptographicAlgorithm} {bits : Int}
    {commonAttrs : List Attribute} {privateKeyAttrs publicKeyAttrs : Option (List Attribute)}
    {reply : Except NetError (Except NetError ResponsePayload)}
    {payload : CreateKeyPairResponsePayload}
    (hexplained : Explained schemes reach ⟨.doRequestPayload pool
      (.CreateKeyPair (some commonAttrs) privateKeyAttrs publicKeyAttrs), reply⟩ v)
    (hmakes : Makes reach service pool bits reply v payload)
    (hmem : .CryptographicAlgorithm algorithm ∈ commonAttrs) :
    Made reach service pool algorithm bits payload v := by
  obtain rfl := hmakes.confirmed
  obtain ⟨key, _, hpublic, htype⟩ := hexplained.created _ _ _ _ _ rfl
  refine ⟨hmakes.isPrivate, hmakes.isPublic, key, hpublic, htype _ hmem, ?_⟩
  rintro curve point rfl
  exact hmakes.curve curve point hpublic

theorem curve_of_ecdsa {params : GenerateParams}
    (h : (selectAlgorithm params).1.kmipCryptoAlg = .ECDSA) :
    ∃ curve, (selectAlgorithm params).1.ellipticCurve.bind
        EllipticCurveInfo.kmipRecommendedCurve = some curve ∧
      keyLength params = curveBits curve := by
  cases params with
  | EcdsaP256Sha256 => exact ⟨.P_256, rfl, rfl⟩
  | EcdsaP384Sha384 => exact ⟨.P_384, rfl, rfl⟩
  | _ => simp [selectAlgorithm, ALG_RSASHA256, ALG_RSASHA512, ALG_ED25519, ALG_ED448] at h

/-- Where a server insists on the curve, the second request names it. -/
theorem createKeyPair_delivers {params : GenerateParams} (hoffers : Offers service params)
    (privateKeyAttrs publicKeyAttrs : List Attribute) :
    Delivers schemes reach service (fun response v' => ∃ payload,
        response = .ok (.CreateKeyPair payload) ∧
        Made reach service pool (selectAlgorithm params).1.kmipCryptoAlg (keyLength params)
          payload v')
      (createKeyPair crates (selectAlgorithm params).1
        [.CryptographicAlgorithm (selectAlgorithm params).1.kmipCryptoAlg,
          .CryptographicLength (keyLength params)] privateKeyAttrs publicKeyAttrs pool) v := by
  have hfirst : Delivers schemes reach service (fun response v' =>
      (∃ payload, response = .ok (.CreateKeyPair payload) ∧ Made reach service pool
        (selectAlgorithm params).1.kmipCryptoAlg (keyLength params) payload v') ∨
      (selectAlgorithm params).1.kmipCryptoAlg = .ECDSA ∧
        ∃ err, response = .error (.ServerError err))
      (sendRequest crates pool (.CreateKeyPair
        (some [.CryptographicAlgorithm (selectAlgorithm params).1.kmipCryptoAlg,
          .CryptographicLength (keyLength params)]) (some privateKeyAttrs) (some publicKeyAttrs)))
      v := by
    refine Delivers.request rfl fun reply v' _ hexplained hserves => ?_
    rcases hserves.created pool _ _ _ _ reply rfl hoffers.makes with
      ⟨payload, hmakes⟩ | ⟨hecdsa, err, rfl⟩
    · have hmade := made_of_makes hexplained hmakes List.mem_cons_self
      obtain rfl := hmakes.confirmed
      exact delivers_lift rfl (Or.inl ⟨payload, rfl, hmade⟩)
    · exact delivers_lift rfl (Or.inr ⟨hecdsa, err, rfl⟩)
  refine hfirst.bind ?_
  rintro _ v' _ (⟨payload, rfl, hmade⟩ | ⟨hecdsa, err, rfl⟩)
  · exact delivers_lift rfl ⟨payload, rfl, hmade⟩
  · obtain ⟨curve, hcurve, hbits⟩ := curve_of_ecdsa hecdsa
    simp only [hcurve]
    refine Delivers.request rfl fun reply v'' _ hexplained hserves => ?_
    have hoffered := hoffers.makes
    rw [hecdsa, hbits] at hoffered hexplained hserves ⊢
    obtain ⟨payload, hmakes⟩ := hserves.createdOnCurve pool curve _ _ reply rfl hoffered
    have hmade := made_of_makes hexplained hmakes List.mem_cons_self
    obtain rfl := hmakes.confirmed
    exact delivers_lift rfl ⟨payload, rfl, hmade⟩

theorem lengthAttributes_of_range {alg : AlgorithmInfo} {bits min max : UInt32}
    (hrange : alg.lenRange = some (min, max)) (hmin : min.toNat ≤ bits.toNat)
    (hmax : bits.toNat ≤ max.toNat) (hsmall : max.toNat < 2 ^ 31) :
    lengthAttributes alg (some bits) = .ok [.CryptographicLength bits.toNat] := by
  have hin : min ≤ bits ∧ bits ≤ max :=
    ⟨UInt32.le_iff_toNat_le.mpr hmin, UInt32.le_iff_toNat_le.mpr hmax⟩
  have hfits : bits.toNat < 2 ^ 31 := by omega
  rw [lengthAttributes, Option.some_or]
  simp only [outsideRange, hrange, hin, tryIntoI32, if_pos hfits]
  rfl

theorem lengthAttributes_of_permitted {params : GenerateParams} (h : LengthPermitted params) :
    lengthAttributes (selectAlgorithm params).1 (selectAlgorithm params).2 =
      .ok [.CryptographicLength (keyLength params)] := by
  cases params with
  | RsaSha256 bits => exact lengthAttributes_of_range rfl h.1 h.2 (by decide)
  | RsaSha512 bits => exact lengthAttributes_of_range rfl h.1 h.2 (by decide)
  | _ => rfl

theorem keyLength_of_ecAlgorithm {params : GenerateParams} {curve : RecommendedCurve}
    (h : params.algorithm = ecAlgorithm curve) : keyLength params = curveBits curve := by
  cases params <;> cases curve <;>
    first | rfl | simp [GenerateParams.algorithm, ecAlgorithm] at h

/-- The length tells the curves apart. -/
theorem matches_of_made {params : GenerateParams}
    (htype : key.cryptographicAlgorithm = (selectAlgorithm params).1.kmipCryptoAlg)
    (hcurve : ∀ curve point, key = .ec curve point → keyLength params = curveBits curve) :
    Matches params.algorithm key := by
  have hsuits : Suits params.algorithm key := ⟨_, getAlgInfo_selectAlgorithm params, htype⟩
  have halgorithm := algorithm_of_suits hsuits
  cases key with
  | rsa key => exact .rsa halgorithm
  | ec curve point =>
      obtain ⟨expected, hexpected⟩ := halgorithm
      have hbits := (keyLength_of_ecAlgorithm hexpected).symm.trans (hcurve curve point rfl)
      obtain rfl : expected = curve := by
        cases expected <;> cases curve <;> first | rfl | simp [curveBits] at hbits
      exact hexpected ▸ .ec expected point
  | ed25519 point => exact halgorithm ▸ .ed25519 point
  | ed448 point => exact halgorithm ▸ .ed448 point

theorem requestKeyPair_delivers {params : GenerateParams} (hoffers : Offers service params)
    (publicKeyName privateKeyName : String) :
    Delivers schemes reach service (fun response v' => ∃ payload,
        response = .CreateKeyPair payload ∧
        service.isPrivate (reach pool) payload.privateKeyUniqueIdentifier ∧
        ¬ service.isPrivate (reach pool) payload.publicKeyUniqueIdentifier ∧
        ∃ key, v' (reach pool) payload.publicKeyUniqueIdentifier = some key ∧
          Matches params.algorithm key)
      (requestKeyPair crates publicKeyName privateKeyName params pool) v := by
  rw [requestKeyPair]
  refine (requireEdxxxSupport_delivers hoffers).bind fun _ v₁ _ _ =>
    delivers_lift_bind (lengthAttributes_of_permitted hoffers.permitted) ?_
  refine (createKeyPair_delivers hoffers (privKeyAttrs privateKeyName)
    (pubKeyAttrs publicKeyName)).bind ?_
  rintro _ v₂ _ ⟨payload, rfl, hprivate, hpublic, key, hkey, htype, hcurve⟩
  exact delivers_lift rfl
    ⟨payload, rfl, hprivate, hpublic, key, hkey, matches_of_made htype hcurve⟩

theorem activate_delivers {privateKeyId : UniqueIdentifier}
    (hprivate : service.isPrivate (reach pool) privateKeyId) :
    Delivers schemes reach service (fun _ _ => True) (activate crates privateKeyId pool) v := by
  have hsend : Delivers schemes reach service
      (fun response _ => ∃ id, response = .ok (.Activate id))
      (sendRequest crates pool (.Activate (some privateKeyId))) v := by
    refine Delivers.request rfl fun reply v' _ _ hserves => ?_
    obtain ⟨id, rfl⟩ := hserves.activated pool privateKeyId reply rfl hprivate
    exact delivers_lift rfl ⟨id, rfl⟩
  rw [activate]
  refine hsend.bind ?_
  rintro _ v' _ ⟨id, rfl⟩
  exact delivers_lift_bind rfl (delivers_lift rfl trivial)

theorem generate_delivers (hcrates : crates.FramesRsa) {params : GenerateParams}
    (hoffers : Offers service params) (publicKeyName privateKeyName : String) (flags : UInt16) :
    Delivers schemes reach service
      (fun keyPair _ => service.isPrivate (reach keyPair.connPool) keyPair.privateKeyId)
      (generate crates publicKeyName privateKeyName params flags pool) v := by
  rw [generate]
  refine Delivers.bind (Delivers.withClient ?_ fun v₁ _ =>
    requestKeyPair_delivers hoffers publicKeyName privateKeyName) ?_
  · rintro _ v₁ v₂ hkeeps ⟨payload, rfl, hprivate, hpublic, key, hkey, hmatches⟩
    exact ⟨payload, rfl, hprivate, hpublic, key, hkeeps _ _ _ hkey, hmatches⟩
  · rintro _ v₁ _ ⟨payload, rfl, hprivate, hpublic, key, hkey, hmatches⟩
    refine delivers_lift_bind rfl ?_
    rw [locateAndActivate]
    refine (Delivers.mapErr _ (fromMetadata_delivers hcrates hpublic hkey hmatches flags
      payload.privateKeyUniqueIdentifier)).bind ?_
    rintro keyPair v₂ _ ⟨hid, hpool⟩
    refine (Delivers.withClient (fun _ _ _ _ h => h) fun v₃ _ => activate_delivers hprivate).bind
      fun _ v₄ _ _ => delivers_lift rfl ?_
    rwa [hid, hpool]

end Generating

section Signing

theorem signRaw_delivers (hschemes : Sized schemes) {self : KeyPair} {key : HsmKey}
    (hprivate : service.isPrivate (reach self.connPool) self.privateKeyId)
    (hkey : v (reach self.connPool) self.privateKeyId = some key)
    (hmatches : Matches self.algorithm key) (data : Octets) :
    Delivers schemes reach service (fun _ _ => True) (signRaw self data) v := by
  obtain ⟨algInfo, halg⟩ := algInfo_of_matches hmatches
  rw [signRaw]
  refine delivers_lift_bind (signPre_of_algInfo halg data) ?_
  refine Delivers.withClient (fun _ _ _ _ h => h) fun v₁ hkeeps => ?_
  refine Delivers.request rfl fun reply v₂ hkeeps' hexplained hserves => ?_
  have hkey' := hkeeps' _ _ _ (hkeeps _ _ _ hkey)
  obtain ⟨signed, rfl⟩ := hserves.signed _ _ _ _ reply key rfl hprivate hkey'
  obtain ⟨signer, hsigner, hsigns⟩ := hexplained.signed _ _ signed rfl _ _ _ rfl
  obtain rfl : key = signer := Option.some.inj (hkey'.symm.trans hsigner)
  obtain ⟨signature, hparse⟩ := parses_of_signs hschemes hmatches halg hsigns
  have hpost : signPost self (.Sign signed) = .ok signature :=
    signPost_eq_ok_iff.mpr ⟨signed, algInfo, rfl, halg, hparse⟩
  exact delivers_lift_bind rfl (delivers_lift_bind rfl (delivers_lift hpost trivial))

/-- The key pair of the entry has its private key on the server that the batch goes to, and
the algorithm of the submitter. -/
structure Servable (reach : ConnPool → Server) (service : Service Server) (submitter : KeyPair)
    (v : Vaults Server) (entry : SignItem) : Prop where
  isPrivate : service.isPrivate (reach submitter.connPool) entry.keyPair.privateKeyId
  key : ∃ key, v (reach submitter.connPool) entry.keyPair.privateKeyId = some key ∧
    Matches submitter.algorithm key
  algorithm : entry.keyPair.algorithm = submitter.algorithm

theorem Servable.mono {submitter : KeyPair} {entry : SignItem}
    (h : Servable reach service submitter v entry) (hkeeps : Keeps v v') :
    Servable reach service submitter v' entry := by
  obtain ⟨key, hkey, hmatches⟩ := h.key
  exact ⟨h.isPrivate, ⟨key, hkeeps _ _ _ hkey, hmatches⟩, h.algorithm⟩

theorem Servable.payload {submitter : KeyPair} {entry : SignItem} {item : BatchItem}
    (h : Servable reach service submitter v entry) (hitem : IsBatchItem entry item) :
    ∃ algInfo, getAlgInfo submitter.algorithm = some algInfo ∧
      item.payload = signRequest entry.keyPair algInfo entry.data := by
  obtain ⟨_, _, hmatches⟩ := h.key
  obtain ⟨algInfo, halg⟩ := algInfo_of_matches hmatches
  have halg' := halg
  rw [← h.algorithm] at halg'
  exact ⟨algInfo, halg, Outcome.ok.inj (hitem.2.symm.trans (signPre_of_algInfo halg' entry.data))⟩

theorem submitBatch_delivers (hschemes : Sized schemes) {submitter : KeyPair}
    {entries : List SignItem} (h : ∀ entry ∈ entries, Servable reach service submitter v entry) :
    Delivers schemes reach service (fun _ _ => True)
      (submitBatch submitter (enqueueAll entries).items) v := by
  have hqueue := enqueued_of_supported fun entry hmem => by
    obtain ⟨_, _, hmatches⟩ := (h entry hmem).key
    rw [Supported, (h entry hmem).algorithm]
    exact Option.isSome_iff_exists.mpr (algInfo_of_matches hmatches)
  rw [submitBatch]
  refine Delivers.request rfl fun reply v' hkeeps hexplained hserves => ?_
  obtain ⟨items, rfl, hsigned⟩ := hserves.signedBatch _ _ reply rfl fun item hmem => by
    obtain ⟨entry, _, hentry, hitem⟩ := exists_mem_of_forall₂ hqueue hmem
    have hservable := (h entry hentry).mono hkeeps
    obtain ⟨algInfo, _, hpayload⟩ := hservable.payload hitem
    obtain ⟨key, hkey, _⟩ := hservable.key
    exact ⟨_, _, _, key, hpayload, hservable.isPrivate, hkey⟩
  have hanswers := forall₂_comp hqueue (hexplained.signedBatch _ _ items rfl)
  have hsignatures : ∀ res ∈ items, ∃ signature, signBatchItem submitter res = .ok signature := by
    intro res hres
    obtain ⟨entry, _, item, ⟨hentry, hitem⟩, hanswer⟩ := exists_mem_of_forall₂ hanswers hres
    obtain ⟨id, signed, rfl⟩ := hsigned res hres
    have hservable := (h entry hentry).mono hkeeps
    obtain ⟨algInfo, halg, hpayload⟩ := hservable.payload hitem
    obtain ⟨key, hkey, hmatches⟩ := hservable.key
    obtain ⟨signer, hsigner, hsigns⟩ := hanswer id signed rfl _ _ _ hpayload
    obtain rfl : key = signer := Option.some.inj (hkey.symm.trans hsigner)
    obtain ⟨signature, hparse⟩ := parses_of_signs hschemes hmatches halg hsigns
    exact ⟨signature, signBatchItem_eq_ok_iff.mpr ⟨id, signed, algInfo, rfl, halg, hparse⟩⟩
  obtain ⟨signatures, hall⟩ := exists_forall₂ hsignatures
  exact delivers_lift_bind rfl (delivers_lift (Outcome.collect_eq_ok_iff.mpr hall) trivial)

theorem signRawSubmitQueue_delivers (hschemes : Sized schemes) {submitter : KeyPair}
    {entries : List SignItem} (h : ∀ entry ∈ entries, Servable reach service submitter v entry) :
    (signRawSubmitQueue submitter (enqueueAll entries)).Meets
      (Disturbed (Working schemes reach service)) (fun _ _ => True)
      (fun result _ => ∃ signatures, result = (.ok signatures, SignQueue.new)) v := by
  refine meets_bracket.mpr ⟨trivial, ?_, ?_⟩
  · intro err v' hstep
    have hconnected := (working_of_disturbed hstep).2.2.connected submitter.connPool _ rfl
    simp at hconnected
  · intro v' hstep
    have hkeeps := (working_of_disturbed hstep).1
    have hsubmit := submitBatch_delivers hschemes fun entry hmem => (h entry hmem).mono hkeeps
    refine Program.meets_bind.mpr (Program.Meets.mono hsubmit ?_)
    rintro _ v₁ ⟨_, signatures, rfl, _⟩
    exact ⟨trivial, fun v₂ _ => ⟨signatures, rfl⟩⟩

end Signing

section Runs

variable {crates : Crates} {ι : Type} [DecidableEq ι] {v₀ : Vaults Server}
  {t : List (Label (api crates) ι)} {sys : System (api crates) ι (Vaults Server)}

theorem truthful_of_working (hrun : Runs (Working schemes reach service) v₀ t sys) :
    Runs (Truthful schemes reach) v₀ t sys :=
  hrun.mono fun h => h.1

theorem ok_of_delivers {ε α : Type} {x : Action ε α} {post : α → Vaults Server → Prop}
    {h : List Exchange} {o : Outcome ε α} (hx : Delivers schemes reach service post x v)
    (hadmits : x.program.Admits h o)
    (hsteps : Steps (Disturbed (Working schemes reach service)) v h v') :
    ∃ a, o = .ok a ∧ post a v' := by
  obtain ⟨_, a, ho, hpost⟩ := Action.Meets.post_of_admits hx hadmits hsteps
  exact ⟨a, ho, hpost⟩

theorem ok_of_generate (hcrates : crates.FramesRsa)
    (hrun : Runs (Working schemes reach service) v₀ t sys) {i : ι}
    {publicKeyName privateKeyName : String} {params : GenerateParams} {flags : UInt16}
    {pool : ConnPool} (hoffers : Offers service params)
    {outcome : Outcome GenerateError KeyPair}
    (h : .returned i (ApiCall.generate publicKeyName privateKeyName params flags pool)
      outcome ∈ t) :
    ∃ keyPair, outcome = .ok keyPair ∧
      service.isPrivate (reach keyPair.connPool) keyPair.privateKeyId := by
  obtain ⟨exchanged, v₁, v₂, _, hadmits, hsteps⟩ := hrun.since_start h
  exact ok_of_delivers (generate_delivers hcrates hoffers publicKeyName privateKeyName flags)
    hadmits hsteps

/-- A key pair that has been generated, or one that has been loaded and whose keys were
there from the start. -/
inductive Owned (reach : ConnPool → Server) (service : Service Server) (v₀ : Vaults Server)
    (t : List (Label (api crates) ι)) (keyPair : KeyPair) : Prop
  | generated {i : ι} {publicKeyName privateKeyName : String} {params : GenerateParams}
      {flags : UInt16} {pool : ConnPool} (hoffers : Offers service params)
      (h : .returned i (ApiCall.generate publicKeyName privateKeyName params flags pool)
        (Outcome.ok keyPair) ∈ t) : Owned reach service v₀ t keyPair
  | loaded (hprivate : service.isPrivate (reach keyPair.connPool) keyPair.privateKeyId)
      (hpaired : Paired reach v₀ keyPair) (h : Loaded t keyPair) : Owned reach service v₀ t keyPair

/-- What is so of a key pair that is owned, at every later time as well. -/
structure Usable (reach : ConnPool → Server) (service : Service Server)
    (t : List (Label (api crates) ι)) (v : Vaults Server) (keyPair : KeyPair) : Prop where
  loaded : Loaded t keyPair
  paired : Paired reach v keyPair
  isPrivate : service.isPrivate (reach keyPair.connPool) keyPair.privateKeyId
  key : ∃ key, v (reach keyPair.connPool) keyPair.privateKeyId = some key ∧
    Matches keyPair.algorithm key

omit [DecidableEq ι] in
theorem Usable.mono {t' : List (Label (api crates) ι)} {keyPair : KeyPair}
    (h : Usable reach service t v keyPair) (hsub : ∀ l ∈ t, l ∈ t') (hkeeps : Keeps v v') :
    Usable reach service t' v' keyPair := by
  obtain ⟨key, hkey, hmatches⟩ := h.key
  exact ⟨h.loaded.mono hsub, h.paired.mono hkeeps, h.isPrivate, key, hkeeps _ _ _ hkey, hmatches⟩

theorem usable_of_owned (hcrates : crates.FramesRsa)
    (hrun : Runs (Working schemes reach service) v₀ t sys) {keyPair : KeyPair}
    (howned : Owned reach service v₀ t keyPair) :
    Usable reach service t sys.state keyPair := by
  have htruthful := truthful_of_working hrun
  obtain ⟨hloaded, hpaired, hisPrivate⟩ : Loaded t keyPair ∧ Paired reach sys.state keyPair ∧
      service.isPrivate (reach keyPair.connPool) keyPair.privateKeyId := by
    cases howned with
    | generated hoffers h =>
        obtain ⟨_, heq, hprivate⟩ := ok_of_generate hcrates hrun hoffers h
        obtain rfl := Outcome.ok.inj heq
        exact ⟨.generated h, paired_of_generated htruthful h, hprivate⟩
    | loaded hprivate hpaired h =>
        exact ⟨h, hpaired.mono (keeps_of_later hrun.later), hprivate⟩
  obtain ⟨key, _, hkey, hencodes, _⟩ := recorded_of_loaded hcrates htruthful hloaded hpaired
  exact ⟨hloaded, hpaired, hisPrivate, key, hkey, matches_of_encodes hencodes⟩

section Called

variable {before after : List (Label (api crates) ι)} {i : ι} {operation : ApiCall}

/-- A key pair that was there when an operation was called is there when it is under way, and
can still be used in the end. -/
theorem usable_since_called (hcrates : crates.FramesRsa)
    (hrun : Runs (Working schemes reach service) v₀ (before ++ .called i operation :: after) sys)
    {start : System (api crates) ι (Vaults Server)}
    (hstart : Runs (Working schemes reach service) v₀ before start)
    (hrest : Later (Working schemes reach service) start.state sys.state) {keyPair : KeyPair}
    (howned : Owned reach service v₀ before keyPair) :
    Usable reach service before start.state keyPair ∧
      Recorded reach sys.state keyPair keyPair.dnskey := by
  have husable := usable_of_owned hcrates hstart howned
  have hlast : Usable reach service (before ++ .called i operation :: after) sys.state keyPair :=
    husable.mono (fun l hl => List.mem_append_left _ hl) (keeps_of_later hrest)
  exact ⟨husable,
    recorded_of_loaded hcrates (truthful_of_working hrun) hlast.loaded hlast.paired⟩

theorem signs_of_owned (hcrates : crates.FramesRsa) (hschemes : Sized schemes)
    (hrun : Runs (Working schemes reach service) v₀ (before ++ .called i operation :: after) sys)
    {keyPair : KeyPair} {data : Octets} {outcome : Outcome SignError Signature}
    (howned : Owned reach service v₀ before keyPair)
    (h : .returned i (ApiCall.signRaw keyPair data) outcome ∈ after) :
    ∃ signature, outcome = .ok signature ∧ Validates schemes keyPair.dnskey data signature := by
  obtain ⟨start, hstart, hrest, exchanged, v₁, v₂, hlater, hadmits, hsteps⟩ := hrun.since_called h
  obtain ⟨husable, hrecorded⟩ := usable_since_called hcrates hrun hstart hrest howned
  obtain ⟨key, hkey, hmatches⟩ := husable.key
  obtain ⟨signature, rfl, _⟩ := ok_of_delivers (signRaw_delivers hschemes husable.isPrivate
    (keeps_of_later hlater _ _ _ hkey) hmatches data) hadmits hsteps
  exact ⟨signature, rfl, validates_of_signRaw (truthful_of_working hrun) hrecorded ⟨rfl, rfl, rfl⟩
    (List.mem_append_right _ (List.mem_cons_of_mem _ h))⟩

theorem signs_batch_of_owned (hcrates : crates.FramesRsa) (hschemes : Sized schemes)
    (hrun : Runs (Working schemes reach service) v₀ (before ++ .called i operation :: after) sys)
    {submitter : KeyPair} {entries : List SignItem}
    {result : Outcome SignError (List Signature) × SignQueue}
    (howned : ∀ entry ∈ entries, Owned reach service v₀ before entry.keyPair ∧
      entry.keyPair.algorithm = submitter.algorithm ∧
      reach entry.keyPair.connPool = reach submitter.connPool)
    (h : .returned i (ApiCall.signRawSubmitQueue submitter (enqueueAll entries)) result ∈ after) :
    ∃ signatures, result = (.ok signatures, SignQueue.new) ∧
      List.Forall₂ (fun entry signature =>
        Validates schemes entry.keyPair.dnskey entry.data signature) entries signatures := by
  obtain ⟨start, hstart, hrest, exchanged, v₁, v₂, hlater, hadmits, hsteps⟩ := hrun.since_called h
  have hservable : ∀ entry ∈ entries, Servable reach service submitter v₁ entry := by
    intro entry hmem
    obtain ⟨howned, halgorithm, hserver⟩ := howned entry hmem
    obtain ⟨husable, _⟩ := usable_since_called hcrates hrun hstart hrest howned
    obtain ⟨key, hkey, hmatches⟩ := husable.key
    rw [hserver] at hkey
    rw [halgorithm] at hmatches
    exact ⟨hserver ▸ husable.isPrivate, ⟨key, keeps_of_later hlater _ _ _ hkey, hmatches⟩,
      halgorithm⟩
  obtain ⟨signatures, rfl⟩ :=
    (signRawSubmitQueue_delivers hschemes hservable).post_of_admits hadmits hsteps
  refine ⟨signatures, rfl, validates_of_signRawSubmitQueue (truthful_of_working hrun) ?_
    (List.mem_append_right _ (List.mem_cons_of_mem _ h))⟩
  intro entry hmem
  obtain ⟨howned, hsame⟩ := howned entry hmem
  exact ⟨(usable_since_called hcrates hrun hstart hrest howned).2, hsame⟩

/-- Whoever asks for a key pair that the servers offer gets one, and whoever signs with it, or
with one that was loaded, gets a signature that holds under its DNSKEY record. So does whoever
submits a queue of data for such key pairs, as long as they are of one algorithm and on one
server. -/
theorem nothing_fails (hcrates : crates.FramesRsa) (hschemes : Sized schemes)
    (hrun : Runs (Working schemes reach service) v₀ (before ++ .called i operation :: after) sys) :
    (∀ publicKeyName privateKeyName params flags pool outcome, Offers service params →
      .returned i (ApiCall.generate publicKeyName privateKeyName params flags pool) outcome ∈
        after → ∃ keyPair, outcome = .ok keyPair) ∧
    (∀ keyPair data outcome, Owned reach service v₀ before keyPair →
      .returned i (ApiCall.signRaw keyPair data) outcome ∈ after →
      ∃ signature, outcome = .ok signature ∧
        Validates schemes keyPair.dnskey data signature) ∧
    ∀ submitter entries result,
      (∀ entry ∈ entries, Owned reach service v₀ before entry.keyPair ∧
        entry.keyPair.algorithm = submitter.algorithm ∧
        reach entry.keyPair.connPool = reach submitter.connPool) →
      .returned i (ApiCall.signRawSubmitQueue submitter (enqueueAll entries)) result ∈ after →
      ∃ signatures, result = (.ok signatures, SignQueue.new) ∧
        List.Forall₂ (fun entry signature =>
          Validates schemes entry.keyPair.dnskey entry.data signature) entries signatures := by
  refine ⟨?_, fun _ _ _ => signs_of_owned hcrates hschemes hrun,
    fun _ _ _ => signs_batch_of_owned hcrates hschemes hrun⟩
  intro publicKeyName privateKeyName params flags pool outcome hoffers h
  obtain ⟨keyPair, heq, _⟩ := ok_of_generate hcrates hrun hoffers
    (List.mem_append_right _ (List.mem_cons_of_mem _ h))
  exact ⟨keyPair, heq⟩

end Called

end Runs

def sampleService : Service Unit where
  makes algorithm bits := algorithm = .Ed25519 ∧ bits = 256
  isPrivate _ id := id = "private"

theorem sampleSchemes_sized : Sized sampleSchemes where
  ed25519 point data signature h := by
    rw [h.2, sampleSign]
    simp
  ed448 _ _ _ h := h.elim

theorem sampleReplies_serves (call : Call) :
    Serves (fun _ => ()) sampleService ⟨call, sampleReplies call⟩ sampleVaults := by
  refine ⟨?_, ?_, ?_, ?_, ?_, ?_, ?_, ?_⟩
  · rintro pool reply he
    obtain ⟨rfl, he⟩ := Event.mk.inj he
    exact (eq_of_heq he).symm
  · rintro pool reply bits he _
    obtain ⟨rfl, he⟩ := Event.mk.inj he
    obtain rfl := eq_of_heq he
    exact ⟨_, rfl, rfl⟩
  · rintro pool algorithm bits privateKeyAttrs publicKeyAttrs reply he ⟨rfl, rfl⟩
    obtain ⟨rfl, he⟩ := Event.mk.inj he
    obtain rfl := eq_of_heq he
    exact Or.inl ⟨⟨"private", "public"⟩, rfl, rfl, by simp [sampleService], by simp [sampleVaults]⟩
  · rintro pool curve privateKeyAttrs publicKeyAttrs reply he ⟨halgorithm, _⟩
    simp at halgorithm
  · rintro pool id reply key he hpublic hkey
    obtain ⟨rfl, he⟩ := Event.mk.inj he
    obtain rfl := eq_of_heq he
    obtain rfl : id = "public" := by
      by_contra hid
      have hpublic : id ≠ "private" := hpublic
      simp [sampleVaults, hpublic, hid] at hkey
    obtain rfl : HsmKey.ed25519 samplePoint = key := Option.some.inj hkey
    exact ⟨willingKey, rfl, rfl⟩
  · rintro pool id reply he _
    obtain ⟨rfl, he⟩ := Event.mk.inj he
    obtain rfl := eq_of_heq he
    exact ⟨_, rfl⟩
  · rintro pool id parameters data reply key he rfl _
    obtain ⟨rfl, he⟩ := Event.mk.inj he
    obtain rfl := eq_of_heq he
    exact ⟨_, rfl⟩
  · rintro pool queue reply he hqueue
    obtain ⟨rfl, he⟩ := Event.mk.inj he
    obtain rfl := eq_of_heq he
    refine ⟨_, rfl, fun res hres => ?_⟩
    obtain ⟨item, hmem, rfl⟩ := List.mem_map.mp hres
    obtain ⟨_, parameters, data, _, hpayload, rfl, _⟩ := hqueue item hmem
    rw [hpayload]
    exact ⟨_, _, rfl⟩

theorem sampleRun_delivers :
    (∃ signature, .returned false sampleSigning (Outcome.ok signature) ∈ sampleRun ∧
      Validates sampleSchemes willingKeyPair.dnskey [1, 2, 3] signature) ∧
    ∃ signatures, .returned false sampleSubmission (Outcome.ok signatures, SignQueue.new) ∈
        sampleRun ∧
      List.Forall₂ (fun entry signature =>
        Validates sampleSchemes entry.keyPair.dnskey entry.data signature) sampleEntries
        signatures := by
  have hserver : ∀ call, Working sampleSchemes (fun _ => ()) sampleService sampleVaults call
      (sampleReplies call) sampleVaults :=
    fun call => ⟨sampleReplies_truthful call, sampleReplies_serves call⟩
  have hstart : Runs (Working sampleSchemes (fun _ => ()) sampleService) sampleVaults
    ([] : List (Label (api sampleCrates) Bool)) ⟨fun _ => none, sampleVaults⟩ := .start
  have hgenerated := hstart.trace_of_fixed (i := true) hserver rfl sampleGeneration
  have hsigned := hgenerated.trace_of_fixed (i := false) hserver rfl sampleSigning
  have hrun := hsigned.trace_of_fixed (i := false) hserver rfl sampleSubmission
  rw [List.nil_append, List.append_assoc] at hrun
  obtain ⟨_, hsigns, hsubmits⟩ := nothing_fails sampleCrates_framesRsa sampleSchemes_sized hrun
  have hoffers : Offers sampleService .Ed25519 := ⟨trivial, rfl, rfl⟩
  have howned : Owned (fun _ => ()) sampleService sampleVaults
      (sampleLabels true sampleGeneration) willingKeyPair :=
    .generated hoffers
      (returned_mem_sampleLabels true sampleGeneration)
  constructor
  · obtain ⟨signature, heq, hvalidates⟩ := hsigns willingKeyPair [1, 2, 3] _ howned
      (List.mem_append_left _ List.mem_concat_self)
    refine ⟨signature, ?_, hvalidates⟩
    rw [← heq]
    exact signed_in_sampleRun
  · have hentries : ∀ entry ∈ sampleEntries,
        Owned (fun _ => ()) sampleService sampleVaults (sampleLabels true sampleGeneration)
            entry.keyPair ∧
          entry.keyPair.algorithm = willingKeyPair.algorithm ∧ () = () := by
      intro entry hmem
      rw [keyPair_of_mem_sampleEntries hmem]
      exact ⟨howned, rfl, rfl⟩
    obtain ⟨signatures, heq, hvalidates⟩ := hsubmits willingKeyPair sampleEntries _ hentries
      (List.mem_append_right _
        (returned_mem_sampleLabels false sampleSubmission))
    refine ⟨signatures, ?_, hvalidates⟩
    rw [← heq]
    exact submitted_in_sampleRun

end DomainKmip.WorkingServers
