/-
  FilmCatalog.Proofs.Playback.Remerge
  ───────────────────────────────────
  **MARKERS MERGED ONCE MORE.**

  An incoming marker takes the place of a stored one of its spot, and brings its
  own comment.  In the merged list the markers of the spot may line up in
  another way, and then a second merge pairs them in another way: with the
  comments

      stored  a, b      incoming  z      merged  b, z      merged again  z, z

  So a second merge does change something, but only if a spot has more stored
  markers than incoming ones, and one without a partner comes before an
  incoming one.

    • `mergeLists_eq_self_iff` — when a merge changes nothing,
    • `mergeLists_again_iff` — when the second of two merges changes nothing.
-/
import FilmCatalog.Proofs.Playback.Markers

namespace FilmCatalog.WeaveRule

open Marker (Spot)

/-! ## §1. When a merge changes nothing. -/

/-- A union with equal markers changes no entry. -/
theorem zipWith_unite_of_starts (stored incoming : List (Marker × Nat))
    (h : incoming.map (·.1) <+: stored.map (·.1)) :
    List.zipWith markers.unite stored incoming = stored.take incoming.length := by
  induction incoming generalizing stored with
  | nil => simp
  | cons newer incoming ih =>
    cases stored with
    | nil => simp at h
    | cons older stored =>
      rw [List.map_cons, List.map_cons, List.cons_prefix_cons] at h
      obtain ⟨hheads, hrest⟩ := h
      rw [List.zipWith_cons_cons, ih stored hrest, List.length_cons, List.take_succ_cons]
      congr 1
      show (if older.1.comment = newer.1.comment then older else newer) = older
      rw [hheads, if_pos rfl]

/-- Where the incoming lineup starts the stored one, a walk leaves the entries of
the spot alone. -/
theorem ofKey_walked_of_starts {spot : Spot} {stored incoming : List Marker}
    (h : lineup spot incoming <+: lineup spot stored) :
    markerGrouping.ofKey spot (markers.walked stored incoming)
      = markerGrouping.ofKey spot (markers.ranked stored 0) := by
  have hlength := h.length_le
  rw [← map_fst_ofKey_ranked spot incoming stored.length, ← map_fst_ofKey_ranked spot stored 0] at h
  rw [← length_ofKey_ranked spot incoming stored.length, ← length_ofKey_ranked spot stored 0]
    at hlength
  rw [ofKey_walked, zipWith_unite_of_starts _ _ h, List.drop_of_length_le hlength, List.append_nil,
    List.take_append_drop]

/-- **When a merge changes nothing**: in every spot the incoming markers start the
lineup of the stored ones. -/
theorem mergeLists_eq_self_iff (stored incoming : List Marker) :
    markers.mergeLists stored incoming = stored
      ↔ ∀ spot, lineup spot incoming <+: lineup spot stored := by
  constructor
  · intro h spot
    have hperm := perm_filter_mergeLists spot stored incoming
    rw [h] at hperm
    -- Behind as many markers as came in, both lineups have the same ones.
    have hstart : ((lineup spot stored).take (lineup spot incoming).length).Perm
        (lineup spot incoming) := by
      refine (List.perm_append_right_iff ((lineup spot stored).drop (lineup spot incoming).length)).1 ?_
      rw [List.take_append_drop]
      exact (lineup_perm spot stored).trans hperm
    rw [← eq_of_lined_up ((pairwise_lineup spot stored).sublist (List.take_sublist _ _))
      (pairwise_lineup spot incoming) hstart]
    exact List.take_prefix _ _
  · intro h
    refine restored_of_perm (List.Perm.trans ?_ (markers.ranked_perm stored 0))
    show (markers.walked stored incoming).Perm _
    refine List.perm_iff_count.2 fun entry => ?_
    have hcount : ∀ walk : List (Marker × Nat),
        (markerGrouping.ofKey entry.1.spot walk).count entry = walk.count entry :=
      fun walk => List.count_filter (decide_eq_true rfl)
    rw [← hcount, ofKey_walked_of_starts (h entry.1.spot), hcount]

/-! ## §2. The second merge. -/

/-- The lineup of a merged list starts with what came in if nothing that was left
comes before it. -/
theorem starts_lineup_iff (spot : Spot) (stored incoming : List Marker) :
    lineup spot incoming <+: lineup spot (markers.mergeLists stored incoming)
      ↔ ∀ newer ∈ lineup spot incoming,
          ∀ older ∈ (lineup spot stored).drop (lineup spot incoming).length,
            markers.le newer older = true := by
  have hperm := (lineup_perm spot _).trans (perm_filter_mergeLists spot stored incoming)
  have hmerged := pairwise_lineup spot (markers.mergeLists stored incoming)
  constructor
  · rintro ⟨rest, hrest⟩ newer hnewer older holder
    rw [← hrest] at hperm hmerged
    have hsame := (List.perm_append_left_iff _).1 hperm
    exact (List.pairwise_append.1 hmerged).2.2 newer hnewer older (hsame.mem_iff.2 holder)
  · intro h
    have hsorted := List.pairwise_append.2 ⟨pairwise_lineup spot incoming,
      (pairwise_lineup spot stored).sublist (List.drop_sublist _ _), h⟩
    rw [eq_of_lined_up hmerged hsorted hperm]
    exact List.prefix_append _ _

/-- What holds of a start of a list only is counted down by leaving out its first
items. -/
theorem countP_drop_of_start {p : Marker → Bool} (items : List Marker) (n : Nat)
    (h : items.Pairwise fun a b => p b = true → p a = true) :
    (items.drop n).countP p = items.countP p - n := by
  induction items generalizing n with
  | nil => simp
  | cons head rest ih =>
    obtain ⟨hhead, hrest⟩ := List.pairwise_cons.1 h
    cases n with
    | zero => simp
    | succ n =>
      rw [List.drop_succ_cons, ih n hrest, List.countP_cons]
      by_cases hp : p head = true
      · rw [if_pos hp]
        omega
      · -- Nothing behind the head is counted either.
        have hnone : rest.countP p = 0 :=
          List.countP_eq_zero.2 fun item hitem hcounted => hp (hhead item hitem hcounted)
        rw [hnone, if_neg hp]
        omega

/-- Whether a stored marker is of the spot of an incoming one, with a comment that
comes before the incoming one. -/
def precedes (older newer : Marker) : Bool :=
  older.equivalent newer && compare older.comment newer.comment == .lt

theorem not_le_iff_precedes (older newer : Marker) :
    (!markers.le newer older && decide (older.spot = newer.spot)) = precedes older newer := by
  have hswap : compare newer older = (compare older newer).swap := Std.OrientedCmp.eq_swap
  unfold precedes
  by_cases hspot : older.spot = newer.spot
  · -- Within a spot the comments decide.
    have hcompare : compare older newer = compare older.comment newer.comment := by
      rw [Marker.compare_eq, (Marker.compareSpot_eq_iff older newer).2 hspot]
      rfl
    rw [(Marker.equivalent_iff older newer).2 hspot, decide_eq_true hspot, Bool.and_true,
      Bool.true_and, ← hcompare]
    show (!(compare newer older).isLE) = _
    rw [hswap]
    cases compare older newer <;> rfl
  · have hequivalent : older.equivalent newer = false := by
      rw [Bool.eq_false_iff]
      exact fun h => hspot ((Marker.equivalent_iff older newer).1 h)
    rw [hequivalent, decide_eq_false hspot, Bool.and_false, Bool.false_and]

/-- Behind its first `n` markers a lineup has nothing that comes before an incoming
marker, if no more than `n` of all do. -/
theorem le_of_mem_drop_lineup_iff (newer : Marker) (items : List Marker) (n : Nat) :
    (∀ older ∈ (lineup newer.spot items).drop n, markers.le newer older = true)
      ↔ items.countP (precedes · newer) ≤ n := by
  have hstart : (lineup newer.spot items).Pairwise fun a b =>
      (!markers.le newer b) = true → (!markers.le newer a) = true := by
    refine (pairwise_lineup newer.spot items).imp fun {a b} hab hb => ?_
    rw [Bool.not_eq_true'] at hb ⊢
    rw [Bool.eq_false_iff] at hb ⊢
    exact fun ha => hb (markers_le_trans _ _ _ ha hab)
  have hcount : (lineup newer.spot items).countP (fun older => !markers.le newer older)
      = items.countP (precedes · newer) := by
    rw [(lineup_perm newer.spot items).countP_eq, List.countP_filter]
    exact List.countP_congr fun older _ => by rw [not_le_iff_precedes]
  calc (∀ older ∈ (lineup newer.spot items).drop n, markers.le newer older = true)
      ↔ ((lineup newer.spot items).drop n).countP (fun older => !markers.le newer older) = 0 := by
        rw [List.countP_eq_zero]
        simp
    _ ↔ items.countP (precedes · newer) ≤ n := by
        rw [countP_drop_of_start _ n hstart, hcount]
        omega

/-- The number of incoming markers of a spot. -/
theorem length_lineup_eq_countP (newer : Marker) (items : List Marker) :
    (lineup newer.spot items).length = items.countP (·.equivalent newer) := by
  rw [length_lineup, List.count, List.countP_map]
  refine List.countP_congr fun m _ => ?_
  rw [Function.comp_apply, beq_iff_eq, Marker.equivalent_iff]

/-- When the second of two merges changes nothing. -/
theorem mergeLists_again_iff (stored incoming : List Marker) :
    markers.mergeLists (markers.mergeLists stored incoming) incoming
        = markers.mergeLists stored incoming
      ↔ ∀ newer ∈ incoming,
          stored.countP (precedes · newer) ≤ incoming.countP (·.equivalent newer) := by
  rw [mergeLists_eq_self_iff]
  simp only [starts_lineup_iff]
  constructor
  · intro h newer hnewer
    rw [← length_lineup_eq_countP]
    exact (le_of_mem_drop_lineup_iff newer stored _).1
      (h newer.spot newer (mem_lineup.2 ⟨hnewer, rfl⟩))
  · intro h spot newer hnewer
    obtain ⟨hmem, rfl⟩ := mem_lineup.1 hnewer
    refine (le_of_mem_drop_lineup_iff newer stored _).2 ?_
    rw [length_lineup_eq_countP]
    exact h newer hmem

/-- **Markers merged once more.**  The second merge changes nothing exactly if no
incoming marker has more stored ones of its spot before it than markers of that
spot come in; so it is if no two stored markers are equivalent. -/
theorem remerge_markers_iff (stored incoming : List Marker) :
    (markers.merge (markers.merge stored incoming).value incoming
        = .keep (markers.merge stored incoming).value
      ↔ ∀ newer ∈ incoming,
          stored.countP (precedes · newer) ≤ incoming.countP (·.equivalent newer)) ∧
      (Distinct stored → markers.merge (markers.merge stored incoming).value incoming
        = .keep (markers.merge stored incoming).value) := by
  have hiff : markers.merge (markers.merge stored incoming).value incoming
        = .keep (markers.merge stored incoming).value
      ↔ ∀ newer ∈ incoming,
          stored.countP (precedes · newer) ≤ incoming.countP (·.equivalent newer) := by
    rw [← mergeLists_again_iff]
    constructor
    · intro h
      exact congrArg Merged.value h
    · intro h
      show Merged.replace (markers.mergeLists stored incoming)
        (markers.mergeLists (markers.mergeLists stored incoming) incoming) = _
      rw [h, Merged.replace_self]
      rfl
  refine ⟨hiff, fun hdistinct => hiff.2 fun newer hnewer => ?_⟩
  -- One stored marker at most, and the incoming one counts for itself.
  calc stored.countP (precedes · newer)
      ≤ stored.countP (·.equivalent newer) :=
        List.countP_mono_left fun older _ h => (Bool.and_eq_true_iff.1 h).1
    _ ≤ 1 := by
        rw [← length_lineup_eq_countP, length_lineup]
        exact List.nodup_iff_count.1 hdistinct.nodup_spots newer.spot
    _ ≤ incoming.countP (·.equivalent newer) :=
        List.countP_pos_iff.2 ⟨newer, hnewer, (Marker.equivalent_iff _ _).2 rfl⟩

theorem remerge_midCredits :
    Distinct creditsAndRecap ∧
    markers.merge (markers.merge creditsAndRecap recapAndMidCredits).value recapAndMidCredits
      = .keep (markers.merge creditsAndRecap recapAndMidCredits).value :=
  ⟨by decide, (remerge_markers_iff creditsAndRecap recapAndMidCredits).2 (by decide)⟩

/-- Two scenes in the credits, known at the same second. -/
def twoScenes : List Marker :=
  [⟨.creditsScene, 6900, none, some "outtakes"⟩, ⟨.creditsScene, 6900, none, some "teaser"⟩]

/-- What comes in about one of them. -/
def trailerScene : List Marker := [⟨.creditsScene, 6900, none, some "trailer"⟩]

/-- The trailer takes the place of the outtakes; merged once more, it takes that of
the teaser as well. -/
theorem second_merge_drops_teaser :
    (markers.merge (markers.merge twoScenes trailerScene).value trailerScene).outcome = .updated ∧
    (markers.merge (markers.merge twoScenes trailerScene).value trailerScene).value
      ≠ (markers.merge twoScenes trailerScene).value := by
  have hdiffers : (markers.merge (markers.merge twoScenes trailerScene).value trailerScene).value
      ≠ (markers.merge twoScenes trailerScene).value := by
    intro h
    exact absurd ((mergeLists_again_iff twoScenes trailerScene).1 h) (by decide)
  exact ⟨(Merged.exact_replace _ _).updated_iff.2 hdiffers, hdiffers⟩

end FilmCatalog.WeaveRule
