/-
  FilmCatalog.Dates
  ─────────────────
  **DATES OF A RECORD.**

  When a record was published and when its stream and its poster last
  changed, in seconds since 1970.
-/
import FilmCatalog.Calendar
import FilmCatalog.Load.Basic

namespace FilmCatalog

/-- The dates of a record, in seconds since 1970. -/
structure Dates where
  published : Option Int
  stream : Option Int
  poster : Option Int
  deriving DecidableEq, Repr

namespace Dates

/-- No dates. -/
def none : Dates := ⟨.none, .none, .none⟩

instance : Inhabited Dates := ⟨none⟩

/-- Whether there is no date. -/
def isEmpty (d : Dates) : Bool := d.published.isNone && d.stream.isNone && d.poster.isNone

/-- Loads a second of the calendar. -/
def loadSecond : Loader Int :=
  loadScalar "unix timestamp" fun node =>
    node.toInt?.bind fun second => if Calendar.hasSecond second then some second else .none

/-- Loads the three dates one after the other. -/
def load : Loader Dates := fun old node =>
  withFields old node fun fields =>
    Loaded.done old .absent
      |>.andThen (fun d =>
        (loadOptional loadSecond 0 fields "published" d.published).into
          fun published => { d with published })
      |>.andThen (fun d =>
        (loadOptional loadSecond 0 fields "stream" d.stream).into fun stream => { d with stream })
      |>.andThen (fun d =>
        (loadOptional loadSecond 0 fields "poster" d.poster).into fun poster => { d with poster })

/-- The dates as an object. -/
def store (d : Dates) : Json :=
  storeFields
    [ ("published", storeOptional .ofInt d.published),
      ("stream", storeOptional .ofInt d.stream),
      ("poster", storeOptional .ofInt d.poster) ]

end Dates

end FilmCatalog
