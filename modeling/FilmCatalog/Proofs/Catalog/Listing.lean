/-
  FilmCatalog.Proofs.Catalog.Listing
  ──────────────────────────────────
  **WHICH FILMS A CATALOGUE LISTS.**

  Identifiers go through three stages: the exact pairs are taken out, then the
  similar ones, and the rest is listed as it is.  Records are taken out of a
  map as their films are made.

    • Every record that could be read is in the listing once, with its own
      record (`list_infos`): no identifier comes out of two stages, so none is
      asked for after its record is gone.
    • Every identifier of a video is in the listing, and no other.  Two files
      can share one, `heat.mp4` and `heat.mkv`, and then it is listed more than
      once (`list_videos`).

  Writing repaired records back leaves the outline of the tree, so the videos
  are those that were there before.
-/
import FilmCatalog.Catalog.Listing
import FilmCatalog.Proofs.Files.Rewriting
import FilmCatalog.Proofs.Matching.Exact
import FilmCatalog.Proofs.Matching.Greedy

namespace FilmCatalog

namespace Film

/-- The identifiers of both files of a film. -/
def ids (f : Film) : Option String × Option String :=
  (f.video.map FileRef.id, f.info.map FileRef.id)

/-- The film puts a video and a record together that do not share their name. -/
def joinsOther (id : String) (f : Film) : Bool :=
  f.ids.1 = some id && f.ids.2.any fun info => info ≠ id

/-- The film has the record that a map holds for it. -/
def IsOf (records : SortedMap Record) (f : Film) : Prop :=
  ∀ info, f.info = some info → records.get? info.id = some f.record

end Film

namespace Catalog

/-! ## §1. Films from records. -/

section Taking

variable (c : Catalog) (tree : FileTree)

/-- A film from a record has the identifier of the record. -/
theorem ids_takeFilm (left : SortedMap Record) (video : Option String) (info : String) :
    (c.takeFilm tree left video info).1.ids = (video, some info) := by
  have hvideo : (video.map (c.videoRef tree)).map FileRef.id = video := by
    cases video with
    | none => rfl
    | some id => rfl
  unfold takeFilm
  cases left.get? info with
  | none => exact congrArg (fun id => (id, some info)) hvideo
  | some record => exact congrArg (fun id => (id, some info)) hvideo

/-- Films from records come in the order in which the records are taken. -/
theorem ids_takeFilms (left : SortedMap Record) (pairs : List (Option String × String)) :
    (c.takeFilms tree left pairs).1.map Film.ids = pairs.map fun pair => (pair.1, some pair.2) := by
  induction pairs generalizing left with
  | nil => rfl
  | cons pair rest ih =>
    rw [takeFilms, List.map_cons, List.map_cons, ids_takeFilm, ih]

/-- A film takes its own record only. -/
theorem get?_takeFilm (left : SortedMap Record) (video : Option String) {info other : String}
    (h : info ≠ other) : (c.takeFilm tree left video info).2.get? other = left.get? other := by
  unfold takeFilm
  cases left.get? info with
  | none => rfl
  | some record => rw [SortedMap.get?_erase, if_neg h]

/-- A record that is not taken is left. -/
theorem get?_takeFilms (left : SortedMap Record) (pairs : List (Option String × String))
    {other : String} (h : other ∉ pairs.map (·.2)) :
    (c.takeFilms tree left pairs).2.get? other = left.get? other := by
  induction pairs generalizing left with
  | nil => rfl
  | cons pair rest ih =>
    obtain ⟨hpair, hrest⟩ := not_or.1 (fun hmem => h (List.mem_cons.2 hmem))
    rw [takeFilms, ih _ hrest, get?_takeFilm c tree left pair.1 (Ne.symm hpair)]

/-- A film from a record that is left has the record itself. -/
theorem isOf_takeFilm {records left : SortedMap Record} {info : String}
    (hleft : left.get? info = records.get? info) (hknown : info ∈ records.keys)
    (video : Option String) : (c.takeFilm tree left video info).1.IsOf records := by
  obtain ⟨record, hrecord⟩ := SortedMap.mem_keys_iff.1 hknown
  unfold takeFilm
  rw [hleft, hrecord]
  rintro _ ⟨⟩
  exact hrecord

/-- **Films get their own records** as long as no identifier comes twice: what
a film takes is still there when its turn comes. -/
theorem isOf_takeFilms {records left : SortedMap Record} {pairs : List (Option String × String)}
    (hnodup : (pairs.map (·.2)).Nodup)
    (hleft : ∀ info ∈ pairs.map (·.2), left.get? info = records.get? info)
    (hknown : ∀ info ∈ pairs.map (·.2), info ∈ records.keys) :
    ∀ film ∈ (c.takeFilms tree left pairs).1, film.IsOf records := by
  induction pairs generalizing left with
  | nil =>
    intro film hfilm
    cases hfilm
  | cons pair rest ih =>
    obtain ⟨hpair, hrest⟩ := List.nodup_cons.1 hnodup
    obtain ⟨hfirst, hothers⟩ := List.forall_mem_cons.1 hleft
    obtain ⟨hrecord, hrecords⟩ := List.forall_mem_cons.1 hknown
    refine List.forall_mem_cons.2 ⟨isOf_takeFilm c tree hfirst hrecord pair.1, ?_⟩
    refine ih hrest (fun info hinfo => ?_) hrecords
    have hne : pair.2 ≠ info := by
      rintro rfl
      exact hpair hinfo
    rw [get?_takeFilm c tree left pair.1 hne]
    exact hothers info hinfo

end Taking

/-! ## §2. Groups. -/

section Groups

variable (records : SortedMap Record) (videos : List String)

/-- Similar pairs are chosen greedily from what the exact ones leave. -/
theorem greedy_similar :
    Matching.Greedy (Matching.Eligible records (Matching.split records.keys videos).infos
      (Matching.split records.keys videos).videos) (group records videos).similar :=
  Matching.greedy_accepted _ _ _

/-- Records alone are those that no pair took. -/
theorem group_infos : (group records videos).infos
    = (Matching.split records.keys videos).infos.filter fun id =>
        id ∉ (group records videos).similar.map Matching.Candidate.info :=
  Matching.filter_not_any _ _ _

/-- Videos alone are those that no pair took. -/
theorem group_videos : (group records videos).videos
    = (Matching.split records.keys videos).videos.filter fun id =>
        id ∉ (group records videos).similar.map Matching.Candidate.video :=
  Matching.filter_not_any _ _ _

/-- What is taken out of a list and what is left of it make up the list. -/
theorem perm_append_filter {taken ids : List String} (htaken : taken.Nodup) (hids : ids.Nodup)
    (h : ∀ id ∈ taken, id ∈ ids) : (taken ++ ids.filter fun id => id ∉ taken).Perm ids := by
  have hfound : taken.Perm (ids.filter fun id => id ∈ taken) := by
    refine (List.perm_ext_iff_of_nodup htaken (hids.filter _)).2 fun id => ?_
    rw [List.mem_filter, decide_eq_true_eq]
    exact ⟨fun hid => ⟨h id hid, hid⟩, fun hid => hid.2⟩
  refine (hfound.append_right _).trans ?_
  simpa using List.filter_append_perm (fun id => decide (id ∈ taken)) ids

/-- The identifiers of the records in all groups. -/
def Groups.allInfos (g : Groups) : List String :=
  g.exact ++ g.similar.map Matching.Candidate.info ++ g.infos

/-- **Every record is in one group.** -/
theorem perm_allInfos : (group records videos).allInfos.Perm records.keys := by
  have hsplit := Matching.perm_infos_split records.keys videos
  have hgreedy := greedy_similar records videos
  have hleft : (Matching.split records.keys videos).infos.Nodup :=
    (List.nodup_append.1 (hsplit.nodup_iff.2 records.nodup_keys)).2.1
  have hsimilar : ((group records videos).similar.map Matching.Candidate.info).Nodup :=
    List.pairwise_map.2 (hgreedy.exclusive.imp fun h => h.2)
  have horphans := perm_append_filter hsimilar hleft (by
    intro id hid
    obtain ⟨pair, hpair, rfl⟩ := List.mem_map.1 hid
    exact (hgreedy.sound pair hpair).info)
  unfold Groups.allInfos
  rw [group_infos, List.append_assoc]
  exact (horphans.append_left _).trans hsplit

/-- No record is in two groups. -/
theorem nodup_allInfos : (group records videos).allInfos.Nodup :=
  (perm_allInfos records videos).nodup_iff.2 records.nodup_keys

/-- A similar pair has two names. -/
theorem video_ne_info {pair : Matching.Candidate} (hvideos : videos.Pairwise (· ≤ ·))
    (hpair : pair ∈ (group records videos).similar) : pair.video ≠ pair.info := by
  have heligible := (greedy_similar records videos).sound pair hpair
  have hkeys : records.keys.Pairwise (· ≤ ·) := records.pairwise_keys.imp Std.le_of_lt
  intro heq
  exact Matching.disjoint_split hkeys hvideos pair.info heligible.info (heq ▸ heligible.video)

/-- An identifier is a key once if there is a record for it, and not at all
otherwise. -/
theorem count_keys (id : String) : records.keys.count id = if records.contains id then 1 else 0 := by
  have hmem : id ∈ records.keys ↔ records.contains id = true :=
    SortedMap.mem_keys_iff.trans Option.isSome_iff_exists.symm
  rw [records.nodup_keys.count]
  simp only [hmem]

/-- Records and videos of one name are paired as long as there are both. -/
theorem count_exact (hvideos : videos.Pairwise (· ≤ ·)) (id : String) :
    (group records videos).exact.count id
      = min (if records.contains id then 1 else 0) (videos.count id) := by
  have hkeys : records.keys.Pairwise (· ≤ ·) := records.pairwise_keys.imp Std.le_of_lt
  rw [← count_keys]
  exact Matching.count_both hkeys hvideos id

/-- The exact pairs and what they leave are all videos. -/
theorem count_exact_add_left (id : String) :
    (group records videos).exact.count id + (Matching.split records.keys videos).videos.count id
      = videos.count id := by
  rw [← (Matching.perm_videos_split records.keys videos).count_eq id, List.count_append]
  rfl

theorem count_left_pos {id : String}
    (h : id ∈ (group records videos).similar.map Matching.Candidate.video) :
    0 < (Matching.split records.keys videos).videos.count id := by
  obtain ⟨pair, hpair, rfl⟩ := List.mem_map.1 h
  exact List.count_pos_iff.2 ((greedy_similar records videos).sound pair hpair).video

/-- A name that is in a similar pair has a file for it, and one more if a record
has that name too. -/
theorem le_count_of_similar (hvideos : videos.Pairwise (· ≤ ·)) {id : String}
    (h : id ∈ (group records videos).similar.map Matching.Candidate.video) :
    (if records.contains id then 2 else 1) ≤ videos.count id := by
  have hexact := count_exact records videos hvideos id
  have hall := count_exact_add_left records videos id
  have hleft := count_left_pos records videos h
  split at hexact
  · rw [if_pos (by assumption)]
    omega
  · rw [if_neg (by assumption)]
    omega

/-- **How often a video is in the groups.**  A similar pair takes all files of
its name at once, but a name that is also a record's has been paired before. -/
theorem count_video (hvideos : videos.Pairwise (· ≤ ·)) (id : String) :
    (group records videos).exact.count id
        + ((group records videos).similar.map Matching.Candidate.video).count id
        + (group records videos).videos.count id
      = if id ∈ (group records videos).similar.map Matching.Candidate.video
        then (if records.contains id then 2 else 1) else videos.count id := by
  have hexact := count_exact records videos hvideos id
  have hall := count_exact_add_left records videos id
  rw [group_videos]
  by_cases hsimilar : id ∈ (group records videos).similar.map Matching.Candidate.video
  · have hleft := count_left_pos records videos hsimilar
    have hnodup : ((group records videos).similar.map Matching.Candidate.video).Nodup :=
      List.pairwise_map.2 ((greedy_similar records videos).exclusive.imp fun h => h.1)
    have hrest : ((Matching.split records.keys videos).videos.filter fun other =>
        other ∉ (group records videos).similar.map Matching.Candidate.video).count id = 0 := by
      refine List.count_eq_zero.2 fun hmem => ?_
      exact of_decide_eq_true (List.mem_filter.1 hmem).2 hsimilar
    rw [if_pos hsimilar, hnodup.count, if_pos hsimilar, hrest]
    split at hexact
    · rw [if_pos (by assumption)]
      omega
    · rw [if_neg (by assumption)]
      omega
  · have hnone := List.count_eq_zero.2 hsimilar
    rw [if_neg hsimilar, hnone, List.count_filter (by simpa using hsimilar)]
    omega

end Groups

/-! ## §3. The tree while records are read. -/

/-- A record that could be opened has a file. -/
theorem exists_read {tree : FileTree} {table : CountryTable} {infos id : String} {outcome : Outcome}
    (h : (Record.openFile tree table infos id).result = .ok outcome) :
    ∃ text, tree.read (Record.path infos id) = .ok text := by
  unfold Record.openFile readFile at h
  cases hread : tree.read (Record.path infos id) with
  | error error =>
    rw [hread] at h
    cases h
  | ok text => exact ⟨text, rfl⟩

/-- One record leaves the outline of the tree as it was. -/
theorem sameOutline_visit (c : Catalog) (store : Bool) (state : Known) (id : String) :
    state.tree.SameOutline (c.visit store state id).tree := by
  unfold visit
  simp only
  split
  · exact .refl _
  · rename_i outcome hresult
    by_cases hupdated : outcome = .updated
    · -- Only a record that could be read is written back.
      obtain ⟨text, hread⟩ := exists_read hresult
      rw [if_pos hupdated]
      unfold settle
      split
      · have hsaved := Record.sameOutline_saveFile hread (c.openRecord state.tree id).record
        simp only
        split
        · exact hsaved
        · exact hsaved
      · exact .refl _
    · rw [if_neg hupdated]
      exact .refl _

/-- So do all records, one after the other. -/
theorem sameOutline_foldl (c : Catalog) (store : Bool) (ids : List String) (state : Known) :
    state.tree.SameOutline (ids.foldl (c.visit store) state).tree := by
  induction ids generalizing state with
  | nil => exact .refl _
  | cons id rest ih => exact (sameOutline_visit c store state id).trans (ih _)

/-- **Reading the records leaves the outline of the tree.** -/
theorem sameOutline_known (c : Catalog) (tree : FileTree) (store : Bool) :
    tree.SameOutline (c.known tree store).tree :=
  sameOutline_foldl c store (scanIds tree c.directories.infos [Record.fileExtension])
    ⟨.empty, tree, []⟩

/-- Identifiers depend on the outline of the tree alone. -/
theorem scanIds_congr {tree other : FileTree} (h : tree.SameOutline other) (root : String)
    (extensions : List String) : scanIds other root extensions = scanIds tree root extensions := by
  unfold scanIds
  rw [h.directory?]
  split
  · rfl
  · rw [h.filesBelow]

/-- Identifiers come in ascending order. -/
theorem pairwise_scanIds (tree : FileTree) (root : String) (extensions : List String) :
    (scanIds tree root extensions).Pairwise (· ≤ ·) := by
  unfold scanIds
  split
  · exact .nil
  · refine (List.pairwise_mergeSort ?_ ?_ _).imp fun h => of_decide_eq_true h
    · intro a b c hab hbc
      exact decide_eq_true (String.le_trans (of_decide_eq_true hab) (of_decide_eq_true hbc))
    · intro a b
      simpa using String.le_total a b

/-! ## §4. The listing. -/

/-- The identifiers of films in four groups: exact pairs, similar pairs, videos
without a record, records without a video. -/
def inGroups (exact : List String) (similar : List (String × String)) (videos infos : List String) :
    List (Option String × Option String) :=
  exact.map (fun id => (some id, some id)) ++ similar.map (fun pair => (some pair.1, some pair.2))
    ++ videos.map (fun id => (some id, none)) ++ infos.map (fun id => (none, some id))

/-- The names of the similar pairs. -/
def Groups.pairs (g : Groups) : List (String × String) :=
  g.similar.map fun pair => (pair.video, pair.info)

/-- The films of a listing, by their identifiers, group by group. -/
theorem ids_films (c : Catalog) (state : Known) (g : Groups) :
    (c.films state g).map Film.ids = inGroups g.exact g.pairs g.videos g.infos := by
  unfold films inGroups Groups.pairs
  simp only [List.map_append, ids_takeFilms, List.map_map]
  rfl

/-- The films of a listing have the records of their identifiers. -/
theorem isOf_films (c : Catalog) (state : Known) (videos : List String) :
    ∀ film ∈ c.films state (group state.records videos), film.IsOf state.records := by
  have hnodup := nodup_allInfos state.records videos
  have hknown := fun id => (perm_allInfos state.records videos).mem_iff (a := id)
  generalize group state.records videos = g at hnodup hknown ⊢
  have hpairs : (g.exact.map (fun id => (some id, id))
      ++ g.similar.map fun pair => (some pair.video, pair.info)).map (·.2)
        = g.exact ++ g.similar.map Matching.Candidate.info := by
    simp [Function.comp_def]
  have halone : (g.infos.map fun id => ((none : Option String), id)).map (·.2) = g.infos := by
    simp [Function.comp_def]
  obtain ⟨hfirst, hlast, hapart⟩ := List.nodup_append.1 hnodup
  intro film hfilm
  unfold films at hfilm
  rw [List.mem_append, List.mem_append] at hfilm
  rcases hfilm with (hfilm | hfilm) | hfilm
  · refine isOf_takeFilms c state.tree ?_ ?_ ?_ film hfilm
    · rwa [hpairs]
    · intro info _
      rfl
    · intro info hinfo
      rw [hpairs] at hinfo
      exact (hknown info).1 (List.mem_append_left _ hinfo)
  · obtain ⟨id, _, rfl⟩ := List.mem_map.1 hfilm
    intro info hinfo
    cases hinfo
  · -- No pair has taken the record of a film that comes last.
    refine isOf_takeFilms c state.tree ?_ ?_ ?_ film hfilm
    · rwa [halone]
    · intro info hinfo
      rw [halone] at hinfo
      refine get?_takeFilms c state.tree _ _ fun hmem => ?_
      rw [hpairs] at hmem
      exact hapart info hmem info hinfo rfl
    · intro info hinfo
      rw [halone] at hinfo
      exact (hknown info).1 (List.mem_append_right _ hinfo)

/-- The videos are those that were there before the records were read. -/
theorem videoIds_known (c : Catalog) (tree : FileTree) (store : Bool) :
    c.videoIds (c.known tree store).tree = c.videoIds tree :=
  scanIds_congr (sameOutline_known c tree store) _ _

theorem pairwise_videoIds (c : Catalog) (tree : FileTree) :
    (c.videoIds tree).Pairwise (· ≤ ·) := pairwise_scanIds _ _ _

/-- The groups of a listing. -/
def groupsOf (c : Catalog) (tree : FileTree) (store : Bool) : Groups :=
  group (c.known tree store).records (c.videoIds tree)

theorem films_list (c : Catalog) (tree : FileTree) (store : Bool) :
    (c.list tree store).films = c.films (c.known tree store) (c.groupsOf tree store) := by
  show c.films _ (group _ (c.videoIds (c.known tree store).tree)) = _
  rw [videoIds_known]
  rfl

theorem ids_list (c : Catalog) (tree : FileTree) (store : Bool) :
    (c.list tree store).films.map Film.ids
      = inGroups (c.groupsOf tree store).exact (c.groupsOf tree store).pairs
          (c.groupsOf tree store).videos (c.groupsOf tree store).infos := by
  rw [films_list]
  exact ids_films c (c.known tree store) (c.groupsOf tree store)

/-- Two names, of a video and of a record, that are alike enough to be paired. -/
def AlikeEnough (records : SortedMap Record) (pair : String × String) : Prop :=
  pair.1 ≠ pair.2 ∧ ∃ record, records.get? pair.2 = some record ∧
    Matching.threshold ≤ Matching.score (Matching.keysOf pair.2 record) pair.1

/-- Two similar names are different and alike enough. -/
theorem alikeEnough_pairs {records : SortedMap Record} {videos : List String}
    (hvideos : videos.Pairwise (· ≤ ·)) {pair : String × String}
    (hpair : pair ∈ (group records videos).pairs) : AlikeEnough records pair := by
  obtain ⟨candidate, hcandidate, rfl⟩ := List.mem_map.1 hpair
  obtain ⟨_, _, ⟨record, hrecord, hbest⟩, hreaches⟩ :=
    (greedy_similar records videos).sound candidate hcandidate
  have hscore := (Matching.isBest_score candidate.info record candidate.video).unique hbest
  exact ⟨video_ne_info records videos hvideos hcandidate, record, hrecord, hscore ▸ hreaches⟩

/-- **Every record that could be read is listed once**, with the record itself.
The films come in four groups: exact pairs, similar pairs, videos alone and
records alone; a record is in the first group if a video has its name. -/
theorem list_infos (c : Catalog) (tree : FileTree) (store : Bool) :
    ((c.list tree store).films.filterMap fun film => film.info.map FileRef.id).Perm
      (c.known tree store).records.keys ∧
    ((c.list tree store).films.filterMap fun film => film.info.map FileRef.id).Nodup ∧
    (∀ film ∈ (c.list tree store).films, film.IsOf (c.known tree store).records) ∧
    ∃ exact similar videos infos,
      (c.list tree store).films.map Film.ids = inGroups exact similar videos infos ∧
      exact = (c.known tree store).records.keys.filter (fun id => id ∈ c.videoIds tree) ∧
      ∀ pair ∈ similar, AlikeEnough (c.known tree store).records pair := by
  have hvideos := pairwise_videoIds c tree
  have hinfos : ((c.list tree store).films.filterMap fun film => film.info.map FileRef.id)
      = (c.groupsOf tree store).allInfos := by
    have hsnd : ((c.list tree store).films.filterMap fun film => film.info.map FileRef.id)
        = ((c.list tree store).films.map Film.ids).filterMap (·.2) := by
      rw [List.filterMap_map]
      rfl
    rw [hsnd, ids_list]
    simp [inGroups, Groups.pairs, Groups.allInfos]
  rw [hinfos]
  refine ⟨perm_allInfos _ _, nodup_allInfos _ _, ?_, _, _, _, _, ids_list c tree store, ?_, ?_⟩
  · rw [films_list]
    exact isOf_films c (c.known tree store) (c.videoIds tree)
  · exact Matching.both_eq_filter (c.known tree store).records.pairwise_keys hvideos
  · intro pair hpair
    exact alikeEnough_pairs hvideos hpair

/-! ## §5. Videos. -/

/-- The video files of an identifier. -/
def videoFiles (c : Catalog) (tree : FileTree) (id : String) : List String :=
  match tree.directory? c.directories.videos with
  | none => []
  | some location =>
      (tree.filesBelow location).filter fun file => idOf? videoExtensions file = some id

/-- A video is found as often as there are files of its name. -/
theorem count_videoIds (c : Catalog) (tree : FileTree) (id : String) :
    (c.videoIds tree).count id = (c.videoFiles tree id).length := by
  unfold videoIds scanIds videoFiles
  cases tree.directory? c.directories.videos with
  | none => rfl
  | some location =>
    simp only
    rw [(List.mergeSort_perm _ _).count_eq, List.count_filterMap, List.countP_eq_length_filter]
    simp only [beq_eq_decide]

/-- How many films of a listing have a video of an identifier. -/
def timesListed (c : Catalog) (tree : FileTree) (store : Bool) (id : String) : Nat :=
  (c.list tree store).films.countP fun film => film.video.map FileRef.id = some id

/-- How often a video is listed, group by group. -/
theorem countP_inGroups (exact : List String) (similar : List (String × String))
    (videos infos : List String) (id : String) :
    (inGroups exact similar videos infos).countP (fun ids => ids.1 = some id)
      = exact.count id + (similar.map (·.1)).count id + videos.count id := by
  simp [inGroups, List.count, List.countP_map, Function.comp_def, beq_eq_decide, Nat.add_assoc]

/-- A video joins another name exactly if a similar pair has it. -/
theorem any_joinsOther (c : Catalog) (tree : FileTree) (store : Bool) (id : String) :
    (c.list tree store).films.any (Film.joinsOther id) = true ↔
      id ∈ (c.groupsOf tree store).similar.map Matching.Candidate.video := by
  have hids : (c.list tree store).films.any (Film.joinsOther id)
      = ((c.list tree store).films.map Film.ids).any fun ids =>
          ids.1 = some id && ids.2.any fun info => info ≠ id := by
    rw [List.any_map]
    rfl
  have hpairs : (((c.list tree store).films.map Film.ids).any fun ids =>
      ids.1 = some id && ids.2.any fun info => info ≠ id) = true ↔
        ∃ pair ∈ (c.groupsOf tree store).similar, pair.video = id ∧ pair.info ≠ id := by
    rw [ids_list]
    simp [inGroups, Groups.pairs]
  rw [hids, hpairs, List.mem_map]
  constructor
  · rintro ⟨pair, hpair, hvideo, _⟩
    exact ⟨pair, hpair, hvideo⟩
  · -- The names of a similar pair differ.
    rintro ⟨pair, hpair, rfl⟩
    have hne := video_ne_info _ _ (pairwise_videoIds c tree) hpair
    exact ⟨pair, hpair, rfl, hne.symm⟩

/-- **How often a video is listed.** -/
theorem timesListed_eq (c : Catalog) (tree : FileTree) (store : Bool) (id : String) :
    c.timesListed tree store id
      = if (c.list tree store).films.any (Film.joinsOther id)
        then (if (c.known tree store).records.contains id then 2 else 1)
        else (c.videoFiles tree id).length := by
  have hids : c.timesListed tree store id
      = ((c.list tree store).films.map Film.ids).countP fun ids => ids.1 = some id := by
    rw [List.countP_map]
    rfl
  have hvideo : (c.groupsOf tree store).pairs.map (·.1)
      = (c.groupsOf tree store).similar.map Matching.Candidate.video := by
    simp [Groups.pairs]
  simp only [any_joinsOther]
  rw [hids, ids_list, countP_inGroups, hvideo, ← count_videoIds]
  exact count_video _ _ (pairwise_videoIds c tree) id

/-- **Every identifier of a video is listed**, and no other one.  It is listed
once if it has one file.  Of several files of one name each is listed again,
unless they are matched with a record of another name: then all of them count
as one, besides the exact pair if a record has their name too. -/
theorem list_videos (c : Catalog) (tree : FileTree) (store : Bool) (id : String) :
    (0 < c.timesListed tree store id ↔ c.videoFiles tree id ≠ []) ∧
    ((c.videoFiles tree id).length = 1 → c.timesListed tree store id = 1) ∧
    c.timesListed tree store id
      = if (c.list tree store).films.any (Film.joinsOther id)
        then (if (c.known tree store).records.contains id then 2 else 1)
        else (c.videoFiles tree id).length := by
  have htimes := timesListed_eq c tree store id
  have hfiles : c.videoFiles tree id ≠ [] ↔ 0 < (c.videoFiles tree id).length :=
    List.length_pos_iff.symm
  rw [hfiles]
  by_cases hjoins : (c.list tree store).films.any (Film.joinsOther id) = true
  · have hmany := le_count_of_similar (c.known tree store).records (c.videoIds tree)
      (pairwise_videoIds c tree) ((any_joinsOther c tree store id).1 hjoins)
    rw [count_videoIds] at hmany
    rw [if_pos hjoins] at htimes ⊢
    by_cases hknown : (c.known tree store).records.contains id = true
    · rw [if_pos hknown] at hmany htimes ⊢
      omega
    · rw [if_neg hknown] at hmany htimes ⊢
      omega
  · rw [if_neg hjoins] at htimes ⊢
    omega

/-- A record and two video files of one name. -/
def heatTree : FileTree where
  entries := .ofList
    [("/db", .directory), ("/db/nfo", .directory), ("/db/nfo/heat.json", .file "{}" (.second 0)),
      ("/videos", .directory), ("/videos/heat.mkv", .file "" (.second 0)),
      ("/videos/heat.mp4", .file "" (.second 0))]
  workingDirectory := ""

/-- The catalogue in a tree with `db` and `videos`. -/
def plainCatalog : Catalog := ⟨.under "", .empty⟩

/-- Both files of one name are listed. -/
theorem heat_listed_twice : plainCatalog.timesListed heatTree false "heat" = 2 := by
  have hscan : scanIds heatTree plainCatalog.directories.infos [Record.fileExtension] = ["heat"] := by
    unfold scanIds
    have hdirectory : heatTree.directory? plainCatalog.directories.infos = some "/db/nfo" := by
      decide +kernel
    have hfiles : (heatTree.filesBelow "/db/nfo").filterMap (idOf? [Record.fileExtension])
        = ["heat"] := by decide +kernel
    rw [hdirectory]
    simp only [hfiles, List.mergeSort_singleton]
  have hknown : (plainCatalog.known heatTree false).records.contains "heat" = true := by
    unfold known
    rw [hscan]
    decide +kernel
  have hfiles : (plainCatalog.videoFiles heatTree "heat").length = 2 := by decide +kernel
  rw [timesListed_eq, hknown, hfiles]
  split
  · rfl
  · rfl

end Catalog

end FilmCatalog
