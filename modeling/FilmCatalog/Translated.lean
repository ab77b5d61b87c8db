/-
  FilmCatalog.Translated
  ──────────────────────
  **VALUES BY LANGUAGE.**

  A translated value is a map from language tags to values.  The empty tag
  holds the value without a language.  A lookup that misses falls back:

      find      the tag, the tag cut at its last dash again and again,
                then "", then the fallback
      findAny   each tag of a list, then "", then the fallback
      fallback  findAny for the English tags

  `findAny` and `fallback` hand over to each other.  A list that names both
  English tags is not followed by the fallback, and only that ends the
  lookup (`handOvers`).

  In a document the value for a language stands under `name:tag`, and the
  one without a language under `name`.
-/
import FilmCatalog.Load.Basic
import FilmCatalog.Text.Parts

namespace FilmCatalog

/-- A value for each of some languages. -/
abbrev Translated (α : Type) := SortedMap α

namespace Translated

variable {α : Type}

/-- The tag of the value without a language. -/
def defaultTag : String := ""

/-! ## §1. Lookup. -/

/-- The entry under a tag. -/
def under? (m : Translated α) (tag : String) : Option (String × α) :=
  (SortedMap.get? m tag).map fun value => (tag, value)

/-- The first of some tags that has an entry. -/
def firstOf? (m : Translated α) : List String → Option (String × α)
  | [] => none
  | tag :: rest =>
      match under? m tag with
      | some found => some found
      | none => firstOf? m rest

/-- A tag without its last part; nothing is left of a tag without a dash. -/
def shorten (tag : List Char) : List Char :=
  match Text.splitLast '-' tag with
  | some (before, _) => before
  | none => []

theorem length_of_splitLast {mark : Char} {text before after : List Char}
    (h : Text.splitLast mark text = some (before, after)) :
    before.length < text.length := by
  induction text generalizing before with
  | nil => simp [Text.splitLast] at h
  | cons c rest ih =>
    rw [Text.splitLast] at h
    split at h
    · rename_i b a hrest
      obtain ⟨rfl, rfl⟩ := by simpa using h
      simpa using ih hrest
    · split at h
      · obtain ⟨rfl, rfl⟩ := by simpa using h
        simp
      · simp at h

theorem length_shorten_lt {tag : List Char} (h : tag ≠ []) :
    (shorten tag).length < tag.length := by
  unfold shorten
  split
  · rename_i hsplit
    exact length_of_splitLast hsplit
  · exact List.length_pos_iff.2 h

/-- The entry for a tag or a shortened form of it. -/
def findShortened? (m : Translated α) : List Char → Option (String × α)
  | [] => none
  | c :: rest =>
      match under? m (String.ofList (c :: rest)) with
      | some found => some found
      | none => findShortened? m (shorten (c :: rest))
termination_by tag => tag.length
decreasing_by exact length_shorten_lt (List.cons_ne_nil c rest)

/-- The lookups; each of them may hand over to another one. -/
inductive Lookup where
  /-- By a tag and its shortened forms. -/
  | tag (tag : String)
  /-- By the tags of a list. -/
  | any (tags : List String)
  /-- In English. -/
  | fallback

/-- How often a lookup may hand over.  The fallback does so once, to the list of
English tags; a list that names both English tags never does. -/
def Lookup.handOvers : Lookup → Nat
  | .tag _ => 2
  | .any tags => if "en-US" ∈ tags ∧ "en" ∈ tags then 0 else 2
  | .fallback => 1

/-- The entry that a lookup finds. -/
def run? (m : Translated α) : Lookup → Option (String × α)
  | .tag tag =>
      match findShortened? m tag.toList with
      | some found => some found
      | none =>
          match under? m defaultTag with
          | some found => some found
          | none => run? m .fallback
  | .any tags =>
      match firstOf? m tags with
      | some found => some found
      | none =>
          match under? m defaultTag with
          | some found => some found
          | none => if "en-US" ∈ tags ∧ "en" ∈ tags then none else run? m .fallback
  | .fallback => run? m (.any ["en-US", "en"])
termination_by lookup => lookup.handOvers
decreasing_by
  · decide
  · exact Nat.one_lt_two
  · rename_i huncovered
    rw [Lookup.handOvers, Lookup.handOvers, if_neg huncovered]
    exact Nat.one_lt_two

/-- The best entry for a tag: for the tag or a shortened form of it, else the
one without a language, else the fallback. -/
def find? (m : Translated α) (tag : String) : Option (String × α) := run? m (.tag tag)

/-- The entry for the first tag of a list that has one, else the one without
a language, else, unless the list named both English tags, the fallback. -/
def findAny? (m : Translated α) (tags : List String) : Option (String × α) := run? m (.any tags)

/-- The entry for the list of English tags. -/
def fallback? (m : Translated α) : Option (String × α) := run? m .fallback

/-- Puts a value under a tag and tells whether that changed the map. -/
def update [DecidableEq α] (m : Translated α) (tag : String) (value : α) : Translated α × Bool :=
  if SortedMap.get? m tag = some value then (m, false) else (SortedMap.insert m tag value, true)

/-! ## §2. Documents. -/

/-- The tag in a key of a translated property. -/
def tagOf? (name key : String) : Option String :=
  match Text.dropStart? name.toList key.toList with
  | some [] => some defaultTag
  | some (':' :: tag) => some (String.ofList tag)
  | _ => none

/-- The key of a translated property for a tag. -/
def keyFor (name tag : String) : String :=
  if tag = defaultTag then name else name ++ ":" ++ tag

/-- Loads the property under one key, if the key belongs to it. -/
def loadKey (load : Loader α) (fresh : α) (fields : Json.Fields) (name key : String)
    (m : Translated α) : Loaded (Translated α) :=
  match tagOf? name key with
  | none => .done m .absent
  | some tag =>
      let loaded := loadField load fields key fresh
      match loaded.result with
      | .error _ => loaded.into fun _ => m
      | .ok .absent => loaded.into fun _ => m
      | .ok _ => loaded.into (SortedMap.insert m tag)

/-- Loads every language of a translated property, in key order, each from
the value `fresh`. -/
def load (loadOne : Loader α) (fresh : α) (fields : Json.Fields) (name : String)
    (m : Translated α) : Loaded (Translated α) :=
  (fields.map (·.1)).foldl
    (fun loaded key => loaded.andThen (loadKey loadOne fresh fields name key))
    (.done m .absent)

/-- The fields of a translated property. -/
def stored (store : α → Json) (name : String) (m : Translated α) : List (String × Json) :=
  m.entries.map fun entry => (keyFor name entry.1, store entry.2)

end Translated

end FilmCatalog
