/-
  FilmCatalog.Playback
  ────────────────────
  **MARKERS IN A VIDEO.**

  A marker names a second, or a span, of the video.  Markers are ordered by
  start, end, kind and comment; two markers of the same kind and span are
  `equivalent`, whatever they say.
-/
import FilmCatalog.Load.Basic

namespace FilmCatalog

/-! ## §1. Kinds of markers. -/

/-- What a marker marks. -/
inductive MarkerKind where
  | bookmark | recap | credits | creditsScene | chapter
  deriving DecidableEq, Repr

namespace MarkerKind

instance : Inhabited MarkerKind := ⟨.bookmark⟩

/-- All kinds; a number in an old document is a position in this list. -/
def all : List MarkerKind := [.bookmark, .recap, .credits, .creditsScene, .chapter]

/-- The name of a kind in documents. -/
def name : MarkerKind → String
  | .bookmark => "bookmark"
  | .recap => "recap"
  | .credits => "credits"
  | .creditsScene => "credits_scene"
  | .chapter => "chapter"

/-- The kind with a name. -/
def ofName? (name : String) : Option MarkerKind := all.find? fun kind => kind.name = name

/-- The position of a kind in the order of kinds. -/
def rank : MarkerKind → Nat
  | .bookmark => 0
  | .recap => 1
  | .credits => 2
  | .creditsScene => 3
  | .chapter => 4

/-- The kind at a position. -/
def ofNumber? (number : Json.Number) : Option MarkerKind :=
  (Json.toWord? (.number number)).bind fun index => all[index]?

/-- Loads a kind by name, or by position from an old document. -/
def load : Loader MarkerKind := fun old node =>
  match node with
  | .string name =>
      match ofName? name with
      | some kind => .done kind .unchanged
      | none => .failed old (.unknownName "marker type" name)
  | .number number =>
      match ofNumber? number with
      | some kind => .repaired kind "Numeric enum has a known name"
      | none => .failed old (.unknownName "marker type" number.text)
  | _ => .failed old (.unexpected "string" node)

/-- A kind by its name. -/
def store (kind : MarkerKind) : Json := .string kind.name

end MarkerKind

/-! ## §2. Markers. -/

/-- A second or a span of a video. -/
structure Marker where
  kind : MarkerKind
  start : UInt32
  stop : Option UInt32
  comment : Option String
  deriving DecidableEq, Repr

namespace Marker

/-- The marker that loading starts from. -/
def blank : Marker := ⟨.bookmark, 0, none, none⟩

instance : Inhabited Marker := ⟨blank⟩

/-- Same kind and span. -/
def equivalent (a b : Marker) : Bool :=
  a.kind = b.kind && a.start = b.start && a.stop = b.stop

/-- By start, end, kind and comment; a missing end or comment comes first. -/
instance : Ord Marker where
  compare a b :=
    (compare a.start b.start).then <|
      (compare a.stop b.stop).then <|
        (compare a.kind.rank b.kind.rank).then (compare a.comment b.comment)

/-- Loads a marker from an object. -/
def load : Loader Marker := fun old node =>
  withFields old node fun fields =>
    Loaded.done blank .absent
      |>.andThen (fun m =>
        (loadField MarkerKind.load fields "type" m.kind).into fun kind => { m with kind })
      |>.andThen (fun m =>
        (loadField loadUInt32 fields "start" m.start).into fun start => { m with start })
      |>.andThen (fun m =>
        (loadOptional loadUInt32 0 fields "stop" m.stop).into fun stop => { m with stop })
      |>.andThen (fun m =>
        (loadOptional loadText "" fields "comment" m.comment).into
          fun comment => { m with comment })

/-- A marker as an object. -/
def store (m : Marker) : Json :=
  storeFields
    [ ("type", m.kind.store),
      ("start", storeUInt32 m.start),
      ("stop", storeOptional storeUInt32 m.stop),
      ("comment", storeOptional .string m.comment) ]

end Marker

/-! ## §3. The video of a record. -/

/-- What a record knows of its video. -/
structure Playback where
  /-- The second at which the credits start. -/
  credits : Option UInt32
  /-- The second from which the film counts as watched. -/
  endOfWatch : Option UInt32
  markers : List Marker
  deriving DecidableEq, Repr

namespace Playback

/-- A video of which nothing is known. -/
def unknown : Playback := ⟨none, none, []⟩

instance : Inhabited Playback := ⟨unknown⟩

/-- Whether nothing is known. -/
def isEmpty (p : Playback) : Bool :=
  p.credits.isNone && p.endOfWatch.isNone && p.markers.isEmpty

/-- Loads what is known of a video; the markers are read anew. -/
def load : Loader Playback := fun old node =>
  withFields old node fun fields =>
    Loaded.done old .absent
      |>.andThen (fun p =>
        (loadOptional loadUInt32 0 fields "credits" p.credits).into
          fun credits => { p with credits })
      |>.andThen (fun p =>
        (loadOptional loadUInt32 0 fields "end_of_watch" p.endOfWatch).into
          fun endOfWatch => { p with endOfWatch })
      |>.andThen (fun p =>
        (loadField (loadList Marker.load .blank) fields "markers" []).into
          fun markers => { p with markers })

/-- What is known of a video, as an object. -/
def store (p : Playback) : Json :=
  storeFields
    [ ("credits", storeOptional storeUInt32 p.credits),
      ("end_of_watch", storeOptional storeUInt32 p.endOfWatch),
      ("markers", storeList Marker.store p.markers) ]

end Playback

end FilmCatalog
