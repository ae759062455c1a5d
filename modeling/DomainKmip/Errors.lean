import DomainKmip.Dependencies

namespace DomainKmip.Errors

open DomainKmip.Library.Der
open DomainKmip.Kmip
open DomainKmip.Dependencies

inductive GenerateError where
  | UnsupportedAlgorithm
  | Kmip (text : String)
  deriving DecidableEq, Repr

def GenerateError.display : GenerateError → String
  | UnsupportedAlgorithm => "algorithm not supported"
  | Kmip err => s!"a problem occurred while communicating with the KMIP server: {err}"

inductive DestroyError where
  | Kmip (text : String)
  deriving DecidableEq, Repr

structure KeyUrlParseError where
  text : String
  deriving DecidableEq, Repr

inductive PublicKeyError where
  | InvalidKeyMaterial (text : String)
  | Kmip (text : String)
  deriving DecidableEq, Repr

def PublicKeyError.display : PublicKeyError → String
  | InvalidKeyMaterial err => s!"invalid key material: {err}"
  | Kmip err => s!"a problem occurred while communicating with the KMIP server: {err}"

variable (crates : Crates)

def GenerateError.ofNetError (err : NetError) : GenerateError :=
  .Kmip (crates.displayNetError err)

def DestroyError.ofConnError (err : KmipConnError) : DestroyError :=
  .Kmip (crates.displayConnError err)

def DestroyError.ofNetError (err : NetError) : DestroyError :=
  .Kmip (crates.displayNetError err)

def PublicKeyError.ofNetError (err : NetError) : PublicKeyError :=
  .Kmip (crates.displayNetError err)

/-- `map_der_err`: say which element could not be decoded. -/
def mapDerErr {α : Type} (type : DerType) (el : String) (op : Decoder α) : Decoder α :=
  mapError (fun err =>
    let name := crates.typeName type
    let text := crates.displayDecodeError err
    .content s!"DER {name} '{el}': {text}") op

end DomainKmip.Errors
