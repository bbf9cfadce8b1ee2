import FauPortalen.Foundations.Grouping
import FauPortalen.Register.Fetch.SourceClient

/-! Kartverket's municipalities and SSB's code changes, as they are decoded and as the register
reads them.
-/

namespace FauPortalen.Register

open Foundations

-----------------------------------------------------------------------------------------
-- Kartverket

structure NameDto where
  navn : Option String
  prioritet : Nat
  sprak : Option String
deriving DecidableEq

structure MunicipalityDto where
  kommunenummer : String
  kommunenavn : String
  kommunenavnNorsk : String
  gyldigeNavn : List NameDto
deriving DecidableEq

structure CountyDto where
  fylkesnummer : String
  fylkesnavn : String
  kommuner : List MunicipalityDto
deriving DecidableEq

structure ChangeDto where
  oldCode : String
  oldName : String
  newCode : String
  newName : String
  changeOccurred : String
deriving DecidableEq

/-- The libraries behind the reading: JSON into the shapes above, and dates. -/
class SourceDecoding where
  counties : List UInt8 → Except JsonError (List CountyDto)
  changes : List UInt8 → Except JsonError (List ChangeDto)
  parseDate : String → Option Date

/-- The language's tag. -/
def Kartverket.language (sprak : String) : Option String :=
  match sprak with
  | "Norwegian" => some "no"
  | "Northern Sami" => some "se"
  | "Southern Sami" => some "sma"
  | "Lule Sami" => some "smj"
  | "Kven Finnish" => some "fkv"
  | _ => none

/-- A name, unless it is padding: an entry with neither a name nor a language. -/
def Kartverket.officialName (n : NameDto) : Except SourceError (Option OfficialName) :=
  match n.navn, n.sprak with
  | none, none => .ok none
  | some name, some sprak =>
      match Kartverket.language sprak with
      | some tag => .ok (some ⟨name, tag, n.prioritet⟩)
      | none => .error ⟨.kartverket, .unexpectedValue "sprak"⟩
  | _, _ => .error ⟨.kartverket, .unexpectedValue "gyldigeNavn"⟩

def municipalityRecord (county : CountyDto) (m : MunicipalityDto)
    : Except SourceError MunicipalityRecord := do
  let names ← m.gyldigeNavn.mapM Kartverket.officialName
  return {
    number := m.kommunenummer
    norwegianName := m.kommunenavnNorsk
    officialName := m.kommunenavn
    countyNumber := county.fylkesnummer
    countyName := county.fylkesnavn
    names := sortOn OfficialName.priority (names.filterMap id)
  }

section

variable [SourceDecoding]

def parseMunicipalities (bytes : List UInt8) : Except SourceError (List MunicipalityRecord) := do
  let counties ← (SourceDecoding.counties bytes).mapError (SourceError.parse .kartverket)
  let records ← counties.mapM fun county => county.kommuner.mapM (municipalityRecord county)
  return records.flatten

-----------------------------------------------------------------------------------------
-- SSB

def codeChange (c : ChangeDto) : Except SourceError CodeChange :=
  match SourceDecoding.parseDate c.changeOccurred with
  | some occurredOn => .ok ⟨c.oldCode, c.oldName, c.newCode, c.newName, occurredOn⟩
  | none => .error ⟨.ssb, .unexpectedValue "changeOccurred"⟩

def parseChanges (bytes : List UInt8) : Except SourceError (List CodeChange) := do
  let changes ← (SourceDecoding.changes bytes).mapError (SourceError.parse .ssb)
  changes.mapM codeChange

namespace SourceClient

variable (client : SourceClient)

def municipalities (sent : Nat) : Except SourceError (List MunicipalityRecord) × Nat :=
  let request := {
    source := .kartverket
    url := client.urls.kartverket ++ "/fylkerkommuner"
    query := []
    acceptJson := false
  }
  match client.get request sent with
  | (.error e, sent) => (.error e, sent)
  | (.ok body, sent) => (parseMunicipalities body, sent)

def codeChanges (first last : Date) (sent : Nat) : Except SourceError (List CodeChange) × Nat :=
  let request := {
    source := .ssb
    url := client.urls.ssb ++ "/classifications/131/changes"
    query := [("from", first.toString), ("to", last.toString)]
    acceptJson := true
  }
  match client.get request sent with
  | (.error e, sent) => (.error e, sent)
  | (.ok body, sent) => (parseChanges body, sent)

end SourceClient

end

end FauPortalen.Register
