import DomainKmip.KeyForms
import DomainKmip.KeyPairs

namespace DomainKmip.KeyLoading

open DomainKmip.Library.BigEndian
open DomainKmip.Library.RustResult
open DomainKmip.Library.Der
open DomainKmip.Domain
open DomainKmip.Kmip
open DomainKmip.Dependencies
open DomainKmip.Errors
open DomainKmip.Oids
open DomainKmip.Client
open DomainKmip.Ecdsa
open DomainKmip.PublicKeys
open DomainKmip.KeyForms
open DomainKmip.KeyPairs
open DomainKmip.SigningSafety

/-- What the dispatch takes a byte string to be. -/
inductive Form where
  | pkcs1
  | rsaX509
  | ecX509 (curve : OidInfo) (coordLen : Nat)
  | raw
  deriving DecidableEq

def form (algorithm : SecurityAlgorithm) (format : KeyFormatType) : Option Form :=
  match format with
  | .PKCS1 => if Rsa.usesRsa algorithm then some .pkcs1 else none
  | .X509 =>
      if Rsa.usesRsa algorithm then some .rsaX509
      else match algorithm with
        | .ECDSAP256SHA256 => some (.ecX509 SECP256R1_OID 32)
        | .ECDSAP384SHA384 => some (.ecX509 SECP384R1_OID 48)
        | _ => none
  | .Raw =>
      match algorithm with
      | .ECDSAP384SHA384 => some (.ecX509 SECP384R1_OID 48)
      | .ED25519 | .ED448 => some .raw
      | _ => none
  | .other _ => none

theorem usesRsa_of_form {algorithm : SecurityAlgorithm} {format : KeyFormatType}
    (h : form algorithm format = some .pkcs1 ∨ form algorithm format = some .rsaX509) :
    Rsa.usesRsa algorithm = true := by
  cases algorithm <;> cases format <;> simp_all [form, Rsa.usesRsa]

theorem curve_of_form {algorithm : SecurityAlgorithm} {format : KeyFormatType}
    {curve : OidInfo} {coordLen : Nat}
    (h : form algorithm format = some (.ecX509 curve coordLen)) :
    (algorithm = .ECDSAP256SHA256 ∧ curve = SECP256R1_OID ∧ coordLen = 32) ∨
      (algorithm = .ECDSAP384SHA384 ∧ curve = SECP384R1_OID ∧ coordLen = 48) := by
  cases algorithm <;> cases format <;> simp_all [form, Rsa.usesRsa]

theorem onCurve_of_form {algorithm : SecurityAlgorithm} {format : KeyFormatType}
    {curve : OidInfo} {coordLen : Nat}
    (h : form algorithm format = some (.ecX509 curve coordLen)) :
    Nonempty (OnCurve algorithm curve coordLen) := by
  rcases curve_of_form h with ⟨rfl, rfl, rfl⟩ | ⟨rfl, rfl, rfl⟩
  · exact ⟨onP256⟩
  · exact ⟨onP384⟩

variable (crates : Crates)

/-- The key octets that a byte string of the given form holds. -/
def Form.Holds (bytes publicKey : Octets) : Form → Prop
  | .pkcs1 => ∃ modulus exponent, HasPkcs1 bytes modulus exponent ∧
      crates.rsaEncode exponent modulus = some publicKey
  | .rsaX509 => ∃ modulus exponent, HasRsaX509 bytes modulus exponent ∧
      crates.rsaEncode exponent modulus = some publicKey
  | .ecX509 curve coordLen => HasEcX509 curve bytes (0x04 :: publicKey) ∧
      publicKey.length = 2 * coordLen
  | .raw => publicKey = bytes

def Form.Crashes (bytes : Octets) : Form → Prop
  | .pkcs1 => ∃ modulus exponent, HasPkcs1 bytes modulus exponent ∧
      crates.rsaEncode exponent modulus = none
  | .rsaX509 => ∃ modulus exponent, HasRsaX509 bytes modulus exponent ∧
      crates.rsaEncode exponent modulus = none
  | .ecX509 curve _ => HasEcX509 curve bytes []
  | .raw => False

section OfBytes

variable {algorithm : SecurityAlgorithm} {keyBlock : KeyBlock} {bytes : Octets}

variable (algorithm keyBlock bytes) in
/-- The dispatch, with its table taken out of it. -/
theorem ofBytes_cases :
    match form algorithm keyBlock.keyFormatType with
    | some .pkcs1 => ofBytes crates algorithm keyBlock bytes =
        Rsa.parsePkcs1 crates algorithm bytes
    | some .rsaX509 => ofBytes crates algorithm keyBlock bytes =
        Rsa.parseX509 crates algorithm bytes
    | some (.ecX509 ..) => ofBytes crates algorithm keyBlock bytes =
        Ecdsa.parseX509 crates algorithm bytes
    | some .raw => ofBytes crates algorithm keyBlock bytes = .ok ⟨algorithm, bytes⟩
    | none => ∃ e, ofBytes crates algorithm keyBlock bytes = .err e := by
  cases algorithm <;> cases hformat : keyBlock.keyFormatType <;>
    simp [ofBytes, form, Rsa.usesRsa, hformat]

theorem ofBytes_eq_ok_iff {key : PublicKey} :
    ofBytes crates algorithm keyBlock bytes = .ok key ↔
      ∃ f publicKey, form algorithm keyBlock.keyFormatType = some f ∧
        f.Holds crates bytes publicKey ∧ key = ⟨algorithm, publicKey⟩ := by
  have hdispatch := ofBytes_cases crates algorithm keyBlock bytes
  cases hform : form algorithm keyBlock.keyFormatType with
  | none =>
      rw [hform] at hdispatch
      obtain ⟨e, he⟩ := hdispatch
      simp [he]
  | some f =>
      rw [hform] at hdispatch
      cases f with
      | pkcs1 =>
          rw [hdispatch, parsePkcs1_eq_ok_iff crates (usesRsa_of_form (Or.inl hform))]
          simp only [Form.Holds]
          grind
      | rsaX509 =>
          rw [hdispatch, parseRsaX509_eq_ok_iff crates (usesRsa_of_form (Or.inr hform))]
          simp only [Form.Holds]
          grind
      | ecX509 curve coordLen =>
          obtain ⟨c⟩ := onCurve_of_form hform
          rw [hdispatch, parseEcX509_eq_ok_iff crates c]
          simp only [Form.Holds]
          grind
      | raw =>
          rw [hdispatch]
          simp [Form.Holds, eq_comm]

theorem ofBytes_eq_panic_iff :
    ofBytes crates algorithm keyBlock bytes = .panic ↔
      ∃ f, form algorithm keyBlock.keyFormatType = some f ∧ f.Crashes crates bytes := by
  have hdispatch := ofBytes_cases crates algorithm keyBlock bytes
  cases hform : form algorithm keyBlock.keyFormatType with
  | none =>
      rw [hform] at hdispatch
      obtain ⟨e, he⟩ := hdispatch
      simp [he]
  | some f =>
      rw [hform] at hdispatch
      simp only [Option.some.injEq, exists_eq_left']
      cases f with
      | pkcs1 =>
          rw [hdispatch]
          exact parsePkcs1_eq_panic_iff crates (usesRsa_of_form (Or.inl hform))
      | rsaX509 =>
          rw [hdispatch]
          exact parseRsaX509_eq_panic_iff crates (usesRsa_of_form (Or.inr hform))
      | ecX509 curve coordLen =>
          obtain ⟨c⟩ := onCurve_of_form hform
          rw [hdispatch]
          exact parseEcX509_eq_panic_iff crates c
      | raw =>
          rw [hdispatch]
          simp [Form.Crashes]

end OfBytes

/-- The response holds a key of which `publicKey` are the octets, as far as the
dispatch is concerned. -/
inductive Holds (algorithm : SecurityAlgorithm) : ManagedObject → Octets → Prop
  | bytes {keyBlock : KeyBlock} {bytes publicKey : Octets} {f : Form}
      (hmaterial : keyBlock.keyMaterial = .Bytes bytes)
      (hform : form algorithm keyBlock.keyFormatType = some f)
      (holds : f.Holds crates bytes publicKey) :
      Holds algorithm (.PublicKey keyBlock) publicKey
  | transparent {keyBlock : KeyBlock} {modulus exponent publicKey : Octets}
      (hmaterial : keyBlock.keyMaterial = .TransparentRSAPublicKey modulus exponent)
      (hencode : crates.rsaEncode exponent modulus = some publicKey) :
      Holds algorithm (.PublicKey keyBlock) publicKey

/-- The response crashes the parser it is given to. -/
inductive CrashesParser (algorithm : SecurityAlgorithm) : ManagedObject → Prop
  | bytes {keyBlock : KeyBlock} {bytes : Octets} {f : Form}
      (hmaterial : keyBlock.keyMaterial = .Bytes bytes)
      (hform : form algorithm keyBlock.keyFormatType = some f)
      (hcrashes : f.Crashes crates bytes) :
      CrashesParser algorithm (.PublicKey keyBlock)
  | transparent {keyBlock : KeyBlock} {modulus exponent : Octets}
      (hmaterial : keyBlock.keyMaterial = .TransparentRSAPublicKey modulus exponent)
      (hencode : crates.rsaEncode exponent modulus = none) :
      CrashesParser algorithm (.PublicKey keyBlock)

section Responses

variable {algorithm : SecurityAlgorithm} {object : ManagedObject}

theorem ofManagedObject_eq_ok_iff {key : PublicKey} :
    ofManagedObject crates algorithm object = .ok key ↔
      ∃ publicKey, Holds crates algorithm object publicKey ∧ key = ⟨algorithm, publicKey⟩ := by
  constructor
  · intro h
    rw [ofManagedObject.eq_def] at h
    split at h
    · split at h
      · rename_i hmaterial
        obtain ⟨f, publicKey, hform, holds, rfl⟩ := (ofBytes_eq_ok_iff crates).mp h
        exact ⟨publicKey, .bytes hmaterial hform holds, rfl⟩
      · rename_i hmaterial
        obtain ⟨publicKey, hencode, h⟩ := Outcome.bind_eq_ok_iff.mp h
        obtain rfl : _ = key := by simpa using h
        exact ⟨publicKey, .transparent hmaterial (by simpa using hencode), rfl⟩
      · simp at h
    · simp at h
  · rintro ⟨publicKey, holds, rfl⟩
    cases holds with
    | bytes hmaterial hform holds =>
        rw [ofManagedObject, hmaterial]
        exact (ofBytes_eq_ok_iff crates).mpr ⟨_, publicKey, hform, holds, rfl⟩
    | transparent hmaterial hencode => simp [ofManagedObject, hmaterial, hencode]

theorem ofManagedObject_eq_panic_iff :
    ofManagedObject crates algorithm object = .panic ↔
      CrashesParser crates algorithm object := by
  constructor
  · intro h
    rw [ofManagedObject.eq_def] at h
    split at h
    · split at h
      · rename_i hmaterial
        obtain ⟨f, hform, hcrashes⟩ := (ofBytes_eq_panic_iff crates).mp h
        exact .bytes hmaterial hform hcrashes
      · rename_i hmaterial
        rcases Outcome.bind_eq_panic_iff.mp h with h | ⟨_, _, h⟩
        · exact .transparent hmaterial (by simpa using h)
        · simp at h
      · simp at h
    · simp at h
  · intro h
    cases h with
    | bytes hmaterial hform hcrashes =>
        rw [ofManagedObject, hmaterial]
        exact (ofBytes_eq_panic_iff crates).mpr ⟨_, hform, hcrashes⟩
    | transparent hmaterial hencode => simp [ofManagedObject, hmaterial, hencode]

end Responses

section Eval

variable (reply : (call : Call) → Reply call)

theorem eval_forKeyIdAndDnssecAlgorithm (publicKeyId : String)
    (algorithm : SecurityAlgorithm) (connPool : ConnPool) :
    (forKeyIdAndDnssecAlgorithm crates publicKeyId algorithm connPool).eval reply = (do
      Outcome.ofExcept (fun err =>
        let text := crates.displayConnError err
        PublicKeyError.ofNetError crates (.ServerError
          s!"Error while attempting to acquire KMIP connection from pool: {text}"))
        (reply (.connect connPool))
      let object ← Outcome.ofExcept (PublicKeyError.ofNetError crates)
        (reply (.getKey connPool publicKeyId))
      ofManagedObject crates algorithm object) := by
  simp only [forKeyIdAndDnssecAlgorithm, Action.eval_withClient, Action.eval_bind,
    Action.eval_getKey, Action.eval_lift, Outcome.ok_bind]

variable {crates reply} {publicKeyId : String} {algorithm : SecurityAlgorithm}
  {connPool : ConnPool}

theorem eval_forKeyIdAndDnssecAlgorithm_eq_ok_iff {key : PublicKey} :
    (forKeyIdAndDnssecAlgorithm crates publicKeyId algorithm connPool).eval reply = .ok key ↔
      ∃ object publicKey, reply (.connect connPool) = .ok () ∧
        reply (.getKey connPool publicKeyId) = .ok object ∧
        Holds crates algorithm object publicKey ∧ key = ⟨algorithm, publicKey⟩ := by
  rw [eval_forKeyIdAndDnssecAlgorithm]
  cases reply (.connect connPool) with
  | error err => simp
  | ok _ =>
      cases reply (.getKey connPool publicKeyId) with
      | error err => simp
      | ok object => simp [ofManagedObject_eq_ok_iff]

theorem eval_forKeyIdAndDnssecAlgorithm_eq_panic_iff :
    (forKeyIdAndDnssecAlgorithm crates publicKeyId algorithm connPool).eval reply = .panic ↔
      ∃ object, reply (.connect connPool) = .ok () ∧
        reply (.getKey connPool publicKeyId) = .ok object ∧
        CrashesParser crates algorithm object := by
  rw [eval_forKeyIdAndDnssecAlgorithm]
  cases reply (.connect connPool) with
  | error err => simp
  | ok _ =>
      cases reply (.getKey connPool publicKeyId) with
      | error err => simp
      | ok object => simp [ofManagedObject_eq_panic_iff]

theorem dnskey_eq_panic_iff {ε : Type} {key : PublicKey} {flags : UInt16} :
    (dnskey key flags : Outcome ε Dnskey) = .panic ↔ 65531 < key.publicKey.length := by
  rw [← Dnskey.new_eq_none_iff flags 3 key.algorithm, dnskey]
  cases Dnskey.new flags 3 key.algorithm key.publicKey <;> simp

/-- Loading panics in the parser, or on the length of the DNSKEY record data. -/
theorem eval_fromMetadata_eq_panic_iff {flags : UInt16} {privateKeyId : String} :
    (fromMetadata crates algorithm flags privateKeyId publicKeyId connPool).eval reply =
        .panic ↔
      ∃ object, reply (.connect connPool) = .ok () ∧
        reply (.getKey connPool publicKeyId) = .ok object ∧
        (CrashesParser crates algorithm object ∨
          ∃ publicKey, Holds crates algorithm object publicKey ∧ 65531 < publicKey.length) := by
  simp only [fromMetadata, Action.eval_bind, Action.eval_mapErr, Action.eval_lift,
    Action.eval_pure, Outcome.bind_eq_panic_iff, Outcome.mapErr_eq_panic_iff,
    Outcome.mapErr_eq_ok_iff, eval_forKeyIdAndDnssecAlgorithm_eq_ok_iff,
    eval_forKeyIdAndDnssecAlgorithm_eq_panic_iff, dnskey_eq_panic_iff, reduceCtorEq, and_false,
    exists_false, or_false]
  constructor
  · rintro (⟨object, hconnect, hget, hcrashes⟩ |
      ⟨_, ⟨object, publicKey, hconnect, hget, holds, rfl⟩, hlong⟩)
    · exact ⟨object, hconnect, hget, Or.inl hcrashes⟩
    · exact ⟨object, hconnect, hget, Or.inr ⟨publicKey, holds, hlong⟩⟩
  · rintro ⟨object, hconnect, hget, hcrashes | ⟨publicKey, holds, hlong⟩⟩
    · exact Or.inl ⟨object, hconnect, hget, hcrashes⟩
    · exact Or.inr ⟨_, ⟨object, publicKey, hconnect, hget, holds, rfl⟩, hlong⟩

end Eval

/-- `rsa_encode` panics, or what it returns does not fit into a DNSKEY record. -/
def RsaTooLong (modulus exponent : Octets) : Prop :=
  ∀ publicKey, crates.rsaEncode exponent modulus = some publicKey → 65531 < publicKey.length

/-- A byte string that crashes the loading: an RSA key that is too long, an elliptic
curve key with an empty bit string, or raw octets that do not fit into a DNSKEY
record. -/
def Form.Fatal (bytes : Octets) : Form → Prop
  | .pkcs1 => ∃ modulus exponent, HasPkcs1 bytes modulus exponent ∧
      RsaTooLong crates modulus exponent
  | .rsaX509 => ∃ modulus exponent, HasRsaX509 bytes modulus exponent ∧
      RsaTooLong crates modulus exponent
  | .ecX509 curve _ => HasEcX509 curve bytes []
  | .raw => 65531 < bytes.length

inductive Fatal (algorithm : SecurityAlgorithm) : ManagedObject → Prop
  | bytes {keyBlock : KeyBlock} {bytes : Octets} {f : Form}
      (hmaterial : keyBlock.keyMaterial = .Bytes bytes)
      (hform : form algorithm keyBlock.keyFormatType = some f)
      (hfatal : f.Fatal crates bytes) : Fatal algorithm (.PublicKey keyBlock)
  | transparent {keyBlock : KeyBlock} {modulus exponent : Octets}
      (hmaterial : keyBlock.keyMaterial = .TransparentRSAPublicKey modulus exponent)
      (hlong : RsaTooLong crates modulus exponent) : Fatal algorithm (.PublicKey keyBlock)

theorem rsaTooLong_iff {modulus exponent : Octets} :
    RsaTooLong crates modulus exponent ↔ crates.rsaEncode exponent modulus = none ∨
      ∃ publicKey, crates.rsaEncode exponent modulus = some publicKey ∧
        65531 < publicKey.length := by
  rw [RsaTooLong]
  cases crates.rsaEncode exponent modulus <;> simp

theorem form_fatal_iff {algorithm : SecurityAlgorithm} {format : KeyFormatType} {f : Form}
    {bytes : Octets} (hform : form algorithm format = some f) :
    f.Fatal crates bytes ↔ f.Crashes crates bytes ∨
      ∃ publicKey, f.Holds crates bytes publicKey ∧ 65531 < publicKey.length := by
  cases f with
  | pkcs1 =>
      simp only [Form.Fatal, Form.Crashes, Form.Holds, rsaTooLong_iff]
      grind
  | rsaX509 =>
      simp only [Form.Fatal, Form.Crashes, Form.Holds, rsaTooLong_iff]
      grind
  | ecX509 curve coordLen =>
      -- The points of both curves are short.
      have hlen : coordLen ≤ 48 := by
        rcases curve_of_form hform with ⟨_, _, rfl⟩ | ⟨_, _, rfl⟩ <;> omega
      simp only [Form.Fatal, Form.Crashes, Form.Holds, iff_self_or]
      rintro ⟨publicKey, ⟨_, _⟩, _⟩
      omega
  | raw => simp [Form.Fatal, Form.Crashes, Form.Holds]

theorem fatal_iff {algorithm : SecurityAlgorithm} {object : ManagedObject} :
    Fatal crates algorithm object ↔ CrashesParser crates algorithm object ∨
      ∃ publicKey, Holds crates algorithm object publicKey ∧ 65531 < publicKey.length := by
  constructor
  · rintro (⟨hmaterial, hform, hfatal⟩ | ⟨hmaterial, hlong⟩)
    · rcases (form_fatal_iff crates hform).mp hfatal with hcrashes | ⟨publicKey, holds, hlong⟩
      · exact Or.inl (.bytes hmaterial hform hcrashes)
      · exact Or.inr ⟨publicKey, .bytes hmaterial hform holds, hlong⟩
    · rcases (rsaTooLong_iff crates).mp hlong with hencode | ⟨publicKey, hencode, hlong⟩
      · exact Or.inl (.transparent hmaterial hencode)
      · exact Or.inr ⟨publicKey, .transparent hmaterial hencode, hlong⟩
  · rintro (hcrashes | ⟨publicKey, holds, hlong⟩)
    · cases hcrashes with
      | bytes hmaterial hform hcrashes =>
          exact .bytes hmaterial hform ((form_fatal_iff crates hform).mpr (Or.inl hcrashes))
      | transparent hmaterial hencode =>
          exact .transparent hmaterial ((rsaTooLong_iff crates).mpr (Or.inl hencode))
    · cases holds with
      | bytes hmaterial hform holds =>
          exact .bytes hmaterial hform
            ((form_fatal_iff crates hform).mpr (Or.inr ⟨publicKey, holds, hlong⟩))
      | transparent hmaterial hencode =>
          exact .transparent hmaterial
            ((rsaTooLong_iff crates).mpr (Or.inr ⟨publicKey, hencode, hlong⟩))

/-- Loading a key survives exactly the responses that are not fatal. -/
theorem fromMetadata_ne_panic_iff (algorithm : SecurityAlgorithm) (flags : UInt16)
    (privateKeyId publicKeyId : String) (connPool : ConnPool)
    (reply : (call : Call) → Reply call) :
    (fromMetadata crates algorithm flags privateKeyId publicKeyId connPool).eval reply ≠
        .panic ↔
      ∀ object, reply (.connect connPool) = .ok () →
        reply (.getKey connPool publicKeyId) = .ok object →
        ¬ Fatal crates algorithm object := by
  rw [ne_eq, eval_fromMetadata_eq_panic_iff]
  simp only [← fatal_iff]
  push Not
  rfl

/-- A server with one key, of which it returns the given object. -/
def getReplies (object : ManagedObject) : (call : Call) → Reply call
  | .connect _ => .ok ()
  | .release _ => ()
  | .query _ => .ok ⟨none⟩
  | .doRequestPayload .. => .error (.other "no such operation")
  | .doRequestBatch .. => .error (.other "no such operation")
  | .getKey .. => .ok object
  | .revokeKey .. => .error (.other "no such operation")
  | .destroyKey .. => .error (.other "no such operation")

/-- A P-256 key whose bit string holds no octets. -/
def emptyPoint : ManagedObject :=
  .PublicKey
    { keyFormatType := .X509
      keyMaterial := .Bytes (subjectPublicKeyInfo (ecIdentifier SECP256R1_OID) ⟨0, []⟩)
      cryptographicAlgorithm := some .ECDSA
      cryptographicLength := some 256 }

theorem fromMetadata_panics_on_emptyPoint :
    (fromMetadata sampleCrates .ECDSAP256SHA256 257 "private" "public" samplePool).eval
      (getReplies emptyPoint) = .panic := by
  rfl

end DomainKmip.KeyLoading
