/-
  FilmCatalog.Matching.Orphans
  ────────────────────────────
  **RECORDS AND VIDEOS THAT ARE NEARLY NAMED ALIKE.**

  Every record without a video is compared with every video without a
  record: its identifier and its titles with the identifier of the video.
  Pairs that are alike enough are candidates.  They are taken greedily, the
  best first, and each record and each video is used once.
-/
import FilmCatalog.Matching.Similarity
import FilmCatalog.Record.Basic
import FilmCatalog.Text.Case

namespace FilmCatalog.Matching

/-! ## §1. Candidates. -/

/-- A record and a video that may belong together. -/
structure Candidate where
  ratio : Binary64
  video : String
  info : String
  deriving DecidableEq, Repr

/-- By ratio, then video, then record. -/
instance : Ord Candidate where
  compare a b :=
    (compare a.ratio b.ratio).then <| (compare a.video b.video).then (compare a.info b.info)

/-- The least ratio of a candidate: four fifths. -/
def threshold : Binary64 := .roundQuotient 4 5

/-- An identifier with blanks between its words. -/
def spaced (id : String) : String :=
  id.map fun c => if c = '-' || c = '_' then ' ' else c

/-- What a record is known by. -/
def keysOf (info : String) (record : Record) : List String :=
  spaced info :: (SortedMap.values record.title).map fun title => Text.lower title.text

/-- The best ratio of a video and the keys of a record. -/
def score (keys : List String) (video : String) : Binary64 :=
  (keys.map fun key => ratio key (spaced video)).foldl
    (fun best r => if best ≤ r then r else best) .zero

/-- The candidates for one record. -/
def candidatesFor (info : String) (record : Record) (videos : List String) : List Candidate :=
  let keys := keysOf info record
  videos.filterMap fun video =>
    let best := score keys video
    if threshold ≤ best then some ⟨best, video, info⟩ else none

/-- The candidates for some records; only known ones count. -/
def unsorted (known : SortedMap Record) (infos videos : List String) : List Candidate :=
  infos.flatMap fun info =>
    match known.get? info with
    | some record => candidatesFor info record videos
    | none => []

/-- All candidates, the best first. -/
def candidates (known : SortedMap Record) (infos videos : List String) : List Candidate :=
  (unsorted known infos videos).mergeSort fun a b => (compare b a).isLE

/-! ## §2. The greedy choice. -/

/-- Takes the candidates one after the other, unless their record or video
has been used. -/
def accept (usedInfos usedVideos : List String) : List Candidate → List Candidate
  | [] => []
  | candidate :: rest =>
      if usedInfos.contains candidate.info || usedVideos.contains candidate.video then
        accept usedInfos usedVideos rest
      else
        candidate :: accept (candidate.info :: usedInfos) (candidate.video :: usedVideos) rest

/-- The accepted candidates, and what they leave. -/
structure Matched where
  accepted : List Candidate
  infos : List String
  videos : List String
  deriving DecidableEq, Repr

/-- Pairs records without a video with videos without a record. -/
def matchOrphans (known : SortedMap Record) (infos videos : List String) : Matched :=
  let accepted := accept [] [] (candidates known infos videos)
  { accepted
    infos := infos.filter fun info => !accepted.any fun c => c.info = info
    videos := videos.filter fun video => !accepted.any fun c => c.video = video }

end FilmCatalog.Matching
