/-
  FilmCatalog.Proofs.Matching.Exact
  ─────────────────────────────────
  **NOTHING IS LOST IN A SPLIT.**

  Whatever the lists are, each identifier of either side is found among those
  in common or among those that are left of its side.  If both lists ascend,
  what is left of one side has nothing in common with what is left of the
  other, so the walk has found every pair there is.  Identifiers may be
  repeated; the pairs are then as many as the side has that has fewer
  (`count_both`).  `split_exact` puts this together.
-/
import Mathlib.Data.List.Perm.Basic
import FilmCatalog.Matching.Exact

namespace FilmCatalog.Matching

/-! ## §1. Both sides, up to their order. -/

theorem perm_infos_split (infos videos : List String) :
    ((split infos videos).both ++ (split infos videos).infos).Perm infos := by
  fun_induction split infos videos with
  | case1 videos => exact .refl _
  | case2 info infos => exact .refl _
  | case3 infos video videos rest ih => exact ih.cons video
  | case4 info infos video videos hne hlt rest ih => exact List.perm_middle.trans (ih.cons info)
  | case5 info infos video videos hne hlt rest ih => exact ih

theorem perm_videos_split (infos videos : List String) :
    ((split infos videos).both ++ (split infos videos).videos).Perm videos := by
  fun_induction split infos videos with
  | case1 videos => exact .refl _
  | case2 info infos => exact .refl _
  | case3 infos video videos rest ih => exact ih.cons video
  | case4 info infos video videos hne hlt rest ih => exact ih
  | case5 info infos video videos hne hlt rest ih => exact List.perm_middle.trans (ih.cons video)

theorem mem_of_mem_infos_split {infos videos : List String} {id : String}
    (h : id ∈ (split infos videos).infos) : id ∈ infos :=
  (perm_infos_split infos videos).mem_iff.1 (List.mem_append_right _ h)

theorem mem_of_mem_videos_split {infos videos : List String} {id : String}
    (h : id ∈ (split infos videos).videos) : id ∈ videos :=
  (perm_videos_split infos videos).mem_iff.1 (List.mem_append_right _ h)

/-- What is left of a side stands in the order in which it stood. -/
theorem sublist_infos_split (infos videos : List String) :
    (split infos videos).infos.Sublist infos := by
  fun_induction split infos videos with
  | case1 videos => exact List.Sublist.refl _
  | case2 info infos => exact List.Sublist.refl _
  | case3 infos video videos rest ih => exact ih.cons video
  | case4 info infos video videos hne hlt rest ih => exact ih.cons_cons info
  | case5 info infos video videos hne hlt rest ih => exact ih

theorem sublist_videos_split (infos videos : List String) :
    (split infos videos).videos.Sublist videos := by
  fun_induction split infos videos with
  | case1 videos => exact List.Sublist.refl _
  | case2 info infos => exact List.Sublist.refl _
  | case3 infos video videos rest ih => exact ih.cons video
  | case4 info infos video videos hne hlt rest ih => exact ih
  | case5 info infos video videos hne hlt rest ih => exact ih.cons_cons video

/-! ## §2. Lists that ascend. -/

/-- The head of a list that ascends is the least of it. -/
theorem le_of_mem_ascending {first id : String} {rest : List String}
    (h : (first :: rest).Pairwise (· ≤ ·)) (hid : id ∈ first :: rest) : first ≤ id := by
  rcases List.mem_cons.1 hid with rfl | hid
  · exact String.le_refl id
  · exact (List.pairwise_cons.1 h).1 id hid

/-- What is smaller than the head of a list that ascends is not in the list. -/
theorem not_mem_of_lt {id first : String} {rest : List String}
    (h : (first :: rest).Pairwise (· ≤ ·)) (hlt : id < first) : id ∉ first :: rest := by
  intro hid
  exact String.lt_irrefl id (Std.lt_of_lt_of_le hlt (le_of_mem_ascending h hid))

theorem lt_of_not_lt {info video : String} (hne : ¬ info = video) (hlt : ¬ info < video) :
    video < info :=
  Std.lt_of_le_of_ne hlt fun heq => hne heq.symm

/-- **The walk finds every pair**: what is left of one side is not left of the
other. -/
theorem disjoint_split {infos videos : List String} (hinfos : infos.Pairwise (· ≤ ·))
    (hvideos : videos.Pairwise (· ≤ ·)) :
    ∀ id ∈ (split infos videos).infos, id ∉ (split infos videos).videos := by
  fun_induction split infos videos with
  | case1 videos => simp
  | case2 info infos => simp
  | case3 infos video videos rest ih =>
    exact ih (List.pairwise_cons.1 hinfos).2 (List.pairwise_cons.1 hvideos).2
  | case4 info infos video videos hne hlt rest ih =>
    refine List.forall_mem_cons.2 ⟨fun hmem => ?_, ih (List.pairwise_cons.1 hinfos).2 hvideos⟩
    exact not_mem_of_lt hvideos hlt (mem_of_mem_videos_split hmem)
  | case5 info infos video videos hne hlt rest ih =>
    intro id hid hmem
    rcases List.mem_cons.1 hmem with rfl | hmem
    · exact not_mem_of_lt hinfos (lt_of_not_lt hne hlt) (mem_of_mem_infos_split hid)
    · exact ih hinfos (List.pairwise_cons.1 hvideos).2 id hid hmem

/-- **How often an identifier is paired**: as often as on the side that has it
less often. -/
theorem count_both {infos videos : List String} (hinfos : infos.Pairwise (· ≤ ·))
    (hvideos : videos.Pairwise (· ≤ ·)) (id : String) :
    (split infos videos).both.count id = min (infos.count id) (videos.count id) := by
  have hinfo := (perm_infos_split infos videos).count_eq id
  have hvideo := (perm_videos_split infos videos).count_eq id
  rw [List.count_append] at hinfo hvideo
  by_cases hleft : id ∈ (split infos videos).infos
  · have hnone := List.count_eq_zero.2 (disjoint_split hinfos hvideos id hleft)
    omega
  · have hnone := List.count_eq_zero.2 hleft
    omega

/-- Where no identifier is repeated on the side of the records, those in common
are the ones that the other side has too. -/
theorem both_eq_filter {infos videos : List String} (hinfos : infos.Pairwise (· < ·))
    (hvideos : videos.Pairwise (· ≤ ·)) :
    (split infos videos).both = infos.filter fun id => id ∈ videos := by
  have hweak : ∀ {ids : List String}, ids.Pairwise (· < ·) → ids.Pairwise (· ≤ ·) :=
    fun h => h.imp Std.le_of_lt
  fun_induction split infos videos with
  | case1 videos => rfl
  | case2 info infos => simp
  | case3 infos video videos rest ih =>
    obtain ⟨hvideo, hrest⟩ := List.pairwise_cons.1 hinfos
    have hother : ∀ id ∈ infos, decide (id ∈ video :: videos) = decide (id ∈ videos) := by
      intro id hid
      have hne : id ≠ video := fun heq => String.lt_irrefl id (heq ▸ hvideo id hid)
      simp [hne]
    rw [List.filter_cons_of_pos (by simp), List.filter_congr hother]
    show video :: rest.both = _
    rw [ih hrest (List.pairwise_cons.1 hvideos).2]
  | case4 info infos video videos hne hlt rest ih =>
    have hnone := not_mem_of_lt hvideos hlt
    rw [List.filter_cons_of_neg (by simpa using hnone)]
    exact ih (List.pairwise_cons.1 hinfos).2 hvideos
  | case5 info infos video videos hne hlt rest ih =>
    have hnone := not_mem_of_lt (hweak hinfos) (lt_of_not_lt hne hlt)
    have hother : ∀ id ∈ info :: infos, decide (id ∈ video :: videos) = decide (id ∈ videos) := by
      intro id hid
      have hne : id ≠ video := fun heq => hnone (heq ▸ hid)
      simp [hne]
    rw [List.filter_congr hother]
    exact ih hinfos (List.pairwise_cons.1 hvideos).2

/-! ## §3. The split as a whole. -/

/-- **The exact split.**  Of any lists, nothing is lost and nothing made up, and
what is left stands in its old order.  Of lists that ascend, each identifier is
paired as often as both sides have it, and none is left on both sides. -/
theorem split_exact (infos videos : List String) :
    ((split infos videos).both ++ (split infos videos).infos).Perm infos ∧
    ((split infos videos).both ++ (split infos videos).videos).Perm videos ∧
    (split infos videos).infos.Sublist infos ∧ (split infos videos).videos.Sublist videos ∧
    (infos.Pairwise (· ≤ ·) → videos.Pairwise (· ≤ ·) →
      (∀ id, (split infos videos).both.count id = min (infos.count id) (videos.count id)) ∧
      (split infos videos).infos.Pairwise (· ≤ ·) ∧
      (split infos videos).videos.Pairwise (· ≤ ·) ∧
      ∀ id ∈ (split infos videos).infos, id ∉ (split infos videos).videos) := by
  have hinfosLeft := sublist_infos_split infos videos
  have hvideosLeft := sublist_videos_split infos videos
  refine ⟨perm_infos_split infos videos, perm_videos_split infos videos, hinfosLeft, hvideosLeft,
    fun hinfos hvideos => ⟨count_both hinfos hvideos, ?_, ?_, disjoint_split hinfos hvideos⟩⟩
  · exact hinfos.sublist hinfosLeft
  · exact hvideos.sublist hvideosLeft

/-- An identifier that stands twice on one side and three times on the other is
paired twice, and the third copy is left. -/
theorem split_exact_repeated :
    ["alien", "alien", "brazil"].Pairwise (· ≤ ·) ∧
    ["alien", "alien", "alien", "heat"].Pairwise (· ≤ ·) ∧
    split ["alien", "alien", "brazil"] ["alien", "alien", "alien", "heat"]
      = ⟨["alien", "alien"], ["brazil"], ["alien", "heat"]⟩ ∧
    ∀ id, (split ["alien", "alien", "brazil"] ["alien", "alien", "alien", "heat"]).both.count id
      = min (["alien", "alien", "brazil"].count id) (["alien", "alien", "alien", "heat"].count id) := by
  have hinfos : ["alien", "alien", "brazil"].Pairwise (· ≤ ·) := by decide +kernel
  have hvideos : ["alien", "alien", "alien", "heat"].Pairwise (· ≤ ·) := by decide +kernel
  refine ⟨hinfos, hvideos, by decide +kernel, ?_⟩
  exact ((split_exact _ _).2.2.2.2 hinfos hvideos).1

end FilmCatalog.Matching
