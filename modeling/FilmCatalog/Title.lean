/-
  FilmCatalog.Title
  ─────────────────
  **TITLES OF A FILM.**

  A title has a text, perhaps another text to sort by, and may be marked as
  the original one.  It is in normal form (`Normal`) when the sort text is
  neither empty nor the text itself, and a title without a text has none.

  Older documents hold one object with a `local` and an `orig` title; the
  original title of such a document has an unknown language.
-/
import FilmCatalog.Translated

namespace FilmCatalog

/-! ## §1. Titles. -/

/-- A title in one language. -/
structure Title where
  text : String
  /-- The text to sort by, if it is another one. -/
  sort : Option String
  /-- Whether the film was released under this title first. -/
  original : Bool
  deriving DecidableEq, Repr

/-- The titles of a film by language. -/
abbrev Titles := Translated Title

namespace Title

instance : Inhabited Title := ⟨⟨"", none, false⟩⟩

/-- A title that is only a text. -/
def plain (text : String) : Title := ⟨text, none, false⟩

/-- The sort text says something: it is neither empty nor the text itself, and
there is none without a text. -/
def Normal (t : Title) : Prop :=
  t.sort ≠ some "" ∧ t.sort ≠ some t.text ∧ (t.text = "" → t.sort = none)

/-- Fills an empty text from the sort text and drops a sort text that says
nothing new.  Only an empty sort text next to a title is worth a note. -/
def normalize (t : Title) : Loaded Title :=
  let text := if t.text = "" then t.sort.getD "" else t.text
  if t.sort = some text then .done ⟨text, none, t.original⟩ .unchanged
  else if t.sort = some "" then
    .repaired ⟨text, none, t.original⟩ "Empty sort title string found"
  else .done ⟨text, t.sort, t.original⟩ .unchanged

/-! ## §2. Documents. -/

/-- Whether an object holds titles in the old layout. -/
def isLegacy (fields : Json.Fields) : Bool :=
  fields.contains "local" || fields.contains "orig"

/-- Loads the fields of a title with a text. -/
def loadFields (fields : Json.Fields) (old : Title) (text : String) : Loaded Title :=
  Loaded.done { old with text } .unchanged
    |>.andThen (fun t =>
      (loadOptional loadText "" fields "sort" t.sort).into fun sort => { t with sort })
    |>.andThen (fun t =>
      ((loadField loadBool fields "original" false).into fun original =>
        { t with original }).withoutOutcome)
    |>.andThen normalize

/-- Loads a title from a text or an object. -/
def load : Loader Title := fun old node =>
  match node with
  | .string text => (plain text).normalize
  | .object fields =>
      if isLegacy fields then .done old .absent
      else
        let text := loadOptional loadText "" fields "text" none
        match text.result, text.value with
        | .error _, _ => text.into fun _ => old
        | .ok _, none => .done old .absent
        | .ok _, some text => loadFields fields old text
  | _ => .failed old (.unexpected "string or object" node)

/-- A title as a text, or as an object if it is more than that. -/
def store (t : Title) : Json :=
  if t.sort = none ∧ t.original = false then .string t.text
  else storeFields
    [ ("text", .string t.text),
      ("sort", storeOptional .string t.sort),
      ("original", if t.original then .bool true else .null) ]

end Title

/-! ## §3. Titles of a film. -/

namespace Titles

/-- The tag of an original title in an unknown language. -/
def unknownOriginal : String := "<?>"

/-- Puts a title under a tag that is still free. -/
def fill (titles : Titles) (tag : String) (title : Title) : Titles :=
  if SortedMap.contains titles tag then titles else SortedMap.insert titles tag title

/-- Loads a pair of titles in the old layout next to the titles of the new
one, which win. -/
def loadLegacyFields (fields : Json.Fields) (titles : Titles) : Loaded Titles :=
  let localTitle := (loadOptional loadText "" fields "local" none).under "title"
  let original := (loadOptional loadText "" fields "orig" none).under "title"
  match localTitle.result, original.result with
  | .error error, _ => .failed titles error
  | _, .error error => .failed titles error
  | .ok _, .ok _ =>
      let titles := match localTitle.value with
        | some text => if text = "" then titles else fill titles Translated.defaultTag (.plain text)
        | none => titles
      let titles := match original.value with
        | some text =>
            if text = "" then titles
            else fill titles unknownOriginal { Title.plain text with original := true }
        | none => titles
      .repaired titles "Old-style title found"

/-- Loads the titles of a document in the old layout, if it has some. -/
def loadLegacy (fields : Json.Fields) (titles : Titles) : Loaded Titles :=
  match fields.get? "title" with
  | some (.object legacy) =>
      if Title.isLegacy legacy then loadLegacyFields legacy titles else .done titles .absent
  | _ => .done titles .absent

/-- Whether a title outside the unknown language is the original one. -/
def hasKnownOriginal (titles : Titles) : Bool :=
  SortedMap.any (fun tag title => title.original && tag ≠ unknownOriginal) titles

/-- Whether the title in the unknown language is the original one. -/
def hasUnknownOriginal (titles : Titles) : Bool :=
  match SortedMap.get? titles unknownOriginal with
  | some title => title.original
  | none => false

/-- Drops the original title in an unknown language if there is another
original one. -/
def dropUnneededOriginal (titles : Titles) : Loaded Titles :=
  if hasUnknownOriginal titles && hasKnownOriginal titles then
    .repaired (SortedMap.erase titles unknownOriginal)
      ("There is an unneeded title:" ++ unknownOriginal)
  else .done titles .unchanged

end Titles

end FilmCatalog
