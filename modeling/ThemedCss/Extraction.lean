import ThemedCss.Text.Base64
import ThemedCss.Text.Query

/-! Styles that travel in a resource request. -/
namespace ThemedCss.Extraction
open ThemedCss.Text

/-- The parameter that holds the style text. -/
def parameterName : List Char :=
  "css".toList

/-- Characters of the alphabet for addresses in terms of the standard one. -/
def toStandard (c : Char) : Char :=
  if c == '-' then '+' else if c == '_' then '/' else c

def fill (cs : List Char) : List Char :=
  cs ++ List.replicate ((4 - cs.length % 4) % 4) '='

/-- The bytes of a payload in one of the two alphabets, with or without padding. Plus signs arrive
as blanks. -/
def decodePayload? (value : List Char) : Option Bytes :=
  let payload := value.map fun c => if c == ' ' then '+' else c
  if payload.contains '-' || payload.contains '_' then
    if payload.contains '+' || payload.contains '/' then none
    else Base64.decodeStrict? (fill (payload.map toStandard))
  else Base64.decodeStrict? (fill payload)

/-- The style text of a resource; a missing or broken payload gives no bytes. -/
def load (resource : String) : Bytes :=
  match (Query.parameters (Query.ofResource resource.toList)).lookup parameterName with
  | some value => (decodePayload? value).getD []
  | none => []

end ThemedCss.Extraction
