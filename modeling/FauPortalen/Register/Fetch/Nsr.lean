import FauPortalen.Register.Fetch.SourceClient

/-! NSR's answers: the page of the list and the detail of a unit, as they are decoded and as the
register reads them.
-/

namespace FauPortalen.Register

-----------------------------------------------------------------------------------------
-- What is decoded

structure ListItemDto where
  organisasjonsnummer : String
  navn : String
  kommunenummer : String
  erAktiv : Bool
  erSkole : Bool
  erGrunnskole : Bool
  datoEndret : Option String
deriving DecidableEq

/-- A page of the list, every field required. -/
structure PagedListDto where
  sidenummer : UInt32
  antallSider : UInt32
  totaltAntallEnheter : UInt32
  enhetListe : List ListItemDto
deriving DecidableEq

structure AddressDto where
  adresse : Option String
  postnummer : Option String
  poststed : Option String
deriving DecidableEq

structure UnitDto where
  organisasjonsnummer : String
  navn : String
  /-- The number of `Kommune`. -/
  kommune : String
  erAktiv : Bool
  erSkole : Bool
  erGrunnskole : Bool
  erPrivatskole : Bool
  skolekategorier : List String
  /-- Priority and code. -/
  naeringskoder : List (Int × String)
  skoletrinnGsFra : Option Int
  skoletrinnGsTil : Option Int
  maalform : Option String
  internettadresse : Option String
  beliggenhetsadresse : Option AddressDto
  postadresse : Option AddressDto
  utgaattype : Option String
  utgaattDato : Option String
  datoEndret : Option String
deriving DecidableEq

/-- The libraries behind the reading: JSON into the shapes above, and instants. -/
class NsrDecoding where
  pagedList : List UInt8 → Except JsonError PagedListDto
  unit : List UInt8 → Except JsonError UnitDto
  parseTimestamp : String → Option Timestamp

-----------------------------------------------------------------------------------------
-- What the register reads

/-- Enough to decide which details to fetch. -/
structure NsrListItem where
  orgnr : String
  name : String
  municipalityNumber : String
  isActive : Bool
  isSchool : Bool
  isPrimarySchool : Bool
  changedAt : Option Timestamp
deriving DecidableEq

structure NsrListPage where
  page : UInt32
  pageCount : UInt32
  total : UInt32
  units : List NsrListItem
deriving DecidableEq

/-- The text without the whitespace around it, when something is left. -/
def nonEmpty (text : Option String) : Option String :=
  (text.map fun t => String.ofList (Membership.trim t.toList)).filter (· ≠ "")

def nsrAddress : Option AddressDto → NsrAddress
  | none => ⟨none, none, none⟩
  | some a => ⟨nonEmpty a.adresse, nonEmpty a.postnummer, nonEmpty a.poststed⟩

/-- How many units a page of the list is asked to hold. -/
def nsrPageSize : Nat := 1000

/-- The most pages a list is read from. -/
def nsrMaxPages : Nat := 100

section

variable [NsrDecoding]

def nsrTimestamp (text : Option String) (field : String) : Except SourceError (Option Timestamp) :=
  match nonEmpty text with
  | none => .ok none
  | some t =>
      match NsrDecoding.parseTimestamp t with
      | some instant => .ok (some instant)
      | none => .error ⟨.nsr, .unexpectedValue field⟩

def listItems (items : List ListItemDto) : Except SourceError (List NsrListItem) :=
  items.mapM fun u => do
    return {
      orgnr := u.organisasjonsnummer
      name := u.navn
      municipalityNumber := u.kommunenummer
      isActive := u.erAktiv
      isSchool := u.erSkole
      isPrimarySchool := u.erGrunnskole
      changedAt := ← nsrTimestamp u.datoEndret "DatoEndret"
    }

def parsePagedListPage (bytes : List UInt8) : Except SourceError NsrListPage := do
  let dto ← (NsrDecoding.pagedList bytes).mapError (SourceError.parse .nsr)
  let units ← listItems dto.enhetListe
  return {
    page := dto.sidenummer
    pageCount := dto.antallSider
    total := dto.totaltAntallEnheter
    units := units
  }

/-- NSR's code `A` is no closure. -/
def nsrClosure (d : UnitDto) : Except SourceError (Option NsrClosure) :=
  match d.utgaattype with
  | some code =>
      if code ≠ "A" then do
        return some ⟨code, ← nsrTimestamp d.utgaattDato "UtgaattDato"⟩
      else .ok none
  | none => .ok none

def parseUnit (bytes : List UInt8) : Except SourceError NsrUnit := do
  let d ← (NsrDecoding.unit bytes).mapError (SourceError.parse .nsr)
  let closure ← nsrClosure d
  return {
    orgnr := d.organisasjonsnummer
    name := d.navn
    municipalityNumber := d.kommune
    isSchool := d.erSkole
    isActive := d.erAktiv
    isPrimarySchool := d.erGrunnskole
    isPrivate := d.erPrivatskole
    categoryIds := d.skolekategorier
    nace := d.naeringskoder
    gradeFrom := d.skoletrinnGsFra
    gradeTo := d.skoletrinnGsTil
    language :=
      match d.maalform with
      | some "B" => some "nb"
      | some "N" => some "nn"
      | _ => none
    website := nonEmpty d.internettadresse
    visiting := nsrAddress d.beliggenhetsadresse
    postal := nsrAddress d.postadresse
    closure := closure
    changedAt := ← nsrTimestamp d.datoEndret "DatoEndret"
  }

namespace SourceClient

variable (client : SourceClient)

/-- One page of the list. -/
def nsrListPage (page sent : Nat) : Except SourceError NsrListPage × Nat :=
  let request := {
    source := .nsr
    url := client.urls.nsr ++ "/v4/enheter"
    query := [("sidenummer", toString page), ("antallperside", toString nsrPageSize)]
    acceptJson := false
  }
  match client.get request sent with
  | (.error e, sent) => (.error e, sent)
  | (.ok body, sent) => (parsePagedListPage body, sent)

def unitRequest (orgnr : String) : Request :=
  {
    source := .nsr
    url := client.urls.nsr ++ "/v4/enhet/" ++ orgnr
    query := []
    acceptJson := false
  }

/-- The detail of a unit, with the bytes it was read from. -/
def nsrUnitWithPayload (orgnr : String) (sent : Nat)
    : Except SourceError (NsrUnit × List UInt8) × Nat :=
  match client.get (client.unitRequest orgnr) sent with
  | (.error e, sent) => (.error e, sent)
  | (.ok body, sent) => ((parseUnit body).map fun unit => (unit, body), sent)

/-- No unit without a body. -/
theorem nsrUnitWithPayload_error {orgnr : String} {sent sent' : Nat} {e : SourceError}
    (failed : client.get (client.unitRequest orgnr) sent = (.error e, sent'))
    : client.nsrUnitWithPayload orgnr sent = (.error e, sent') := by
  unfold nsrUnitWithPayload
  rw [failed]

end SourceClient

end

end FauPortalen.Register
