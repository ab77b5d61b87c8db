/-
  FilmCatalog.Matching.Exact
  ──────────────────────────
  **IDENTIFIERS ON BOTH SIDES.**

  Two sorted lists of identifiers are walked side by side; what stands in
  both is taken out, and the rest stays where it was.
-/

namespace FilmCatalog.Matching

/-- Two lists of identifiers, with what they have in common taken out. -/
structure Split where
  both : List String
  infos : List String
  videos : List String
  deriving DecidableEq, Repr

/-- Takes out the identifiers that stand in both of two sorted lists. -/
def split : List String → List String → Split
  | [], videos => ⟨[], [], videos⟩
  | info :: infos, [] => ⟨[], info :: infos, []⟩
  | info :: infos, video :: videos =>
      if info = video then
        let rest := split infos videos
        { rest with both := info :: rest.both }
      else if info < video then
        let rest := split infos (video :: videos)
        { rest with infos := info :: rest.infos }
      else
        let rest := split (info :: infos) videos
        { rest with videos := video :: rest.videos }
termination_by infos videos => infos.length + videos.length

end FilmCatalog.Matching
