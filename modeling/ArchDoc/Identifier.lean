import ArchDoc.Text.Capital

/-!
# Identifiers

The identifiers of the elements of an architecture document, derived from the names that the
facts use: lower case words, separated by hyphens.

Main definitions:

* `slug`: the identifier of a name. A capital starts a new word; spaces, underscores and hyphens
  separate words, never lead and never repeat.
* `databaseId`, `dataAssetId`, `messagingId`: the identifiers of the elements that share their
  name with others, told apart by what stands after the slug.
-/

namespace ArchDoc.Identifier

open Text

/-! ## The slug of a name -/

/-- The characters that separate words. -/
def isSeparator (c : Char) : Bool :=
  c == ' ' || c == '_' || c == '-'

/-- Ends the word in progress: writes a hyphen unless nothing is written yet or a hyphen was
written last. What is written so far stands last character first. -/
def separate : List Char → List Char
  | [] => []
  | c :: written => if c = '-' then c :: written else '-' :: c :: written

/-- Reads one character of a name, with what is written so far standing last character first. -/
def slugStep (written : List Char) (c : Char) : List Char :=
  if isCapital c then (lowercase c).reverse ++ separate written
  else if isSeparator c then separate written
  else c :: written

/-- The characters of the slug of a name. -/
def slugChars (name : List Char) : List Char :=
  (name.foldl slugStep []).reverse

/-- The identifier of a name. -/
def slug (name : String) : String :=
  String.ofList (slugChars name.toList)

/-- The identifier of an element without a name. -/
def unknown : String := "unknown"

/-- The identifier of a name that may be missing. -/
def slug? : Option String → String
  | some name => slug name
  | none => unknown

/-! ## Identifiers with a tag -/

/-- The identifier of the database behind an entity. -/
def databaseId (entity : String) : String :=
  slug entity ++ "-db"

/-- The identifier of a data asset. -/
def dataAssetId (name : String) : String :=
  slug name ++ "-data"

/-- The identifier of a messaging destination, tagged with its messaging system. -/
def messagingId (destination messagingType : String) : String :=
  slug destination ++ "-" ++ slug messagingType

/-- The identifier of the interface through which a service is called. -/
def apiId (service : String) : String :=
  service ++ "-api"

end ArchDoc.Identifier
