/-
  FilmCatalog.Proofs.Playback.Markers
  ───────────────────────────────────
  **MERGED LISTS OF MARKERS.**

  Markers of one kind and span, one *spot*, may differ in their comments.  A
  merge lines up the markers of a spot by their comments on both sides, and
  each incoming marker takes the place of the stored one in the same place of
  the line.  So of every spot the merged list has

      lineup incoming  ++  (lineup stored).drop (number of incoming markers)

    • `perm_filter_mergeLists` — that, up to the order of the markers,
    • `merge_markers` — what is kept, what is taken and how often.
-/
import FilmCatalog.Proofs.Grouping.Classes
import FilmCatalog.Proofs.Merging

namespace FilmCatalog

/-! ## §1. The order of markers. -/

/-- The rank of a kind is its position among all kinds. -/
theorem MarkerKind.getElem?_all_rank (kind : MarkerKind) : all[kind.rank]? = some kind := by
  cases kind <;> rfl

theorem MarkerKind.rank_injective : Function.Injective MarkerKind.rank := by
  intro a b h
  have hsame : some a = some b := by rw [← getElem?_all_rank a, h, getElem?_all_rank b]
  exact Option.some.inj hsame

namespace Marker

/-- A kind and a span. -/
abbrev Spot : Type := MarkerKind × UInt32 × Option UInt32

/-- The kind and the span of a marker: all of it but the comment. -/
def spot (m : Marker) : Spot := (m.kind, m.start, m.stop)

/-- Markers are equivalent if kind and times are the same. -/
theorem equivalent_iff (a b : Marker) : a.equivalent b = true ↔ a.spot = b.spot := by
  simp [equivalent, spot, and_assoc]

/-- Beside the spot there is only the comment. -/
theorem eq_of_spot {a b : Marker} (hspot : a.spot = b.spot) (hcomment : a.comment = b.comment) :
    a = b := by
  cases a
  cases b
  simp only [spot, Prod.mk.injEq] at hspot hcomment
  simp [hspot, hcomment]

/-- By start, end and kind. -/
def compareSpot (a b : Marker) : Ordering :=
  (compare a.start b.start).then
    ((compare a.stop b.stop).then (compare a.kind.rank b.kind.rank))

instance : Std.TransCmp compareSpot :=
  inferInstanceAs (Std.TransCmp (compareLex (compareOn Marker.start)
    (compareLex (compareOn Marker.stop) (compareOn fun m => m.kind.rank))))

/-- Comments count last. -/
theorem compare_eq (a b : Marker) :
    compare a b = (compareSpot a b).then (compare a.comment b.comment) := by
  unfold compareSpot
  rw [Ordering.then_assoc, Ordering.then_assoc]
  rfl

/-- The order of spots tells different ones apart. -/
theorem compareSpot_eq_iff (a b : Marker) : compareSpot a b = .eq ↔ a.spot = b.spot := by
  unfold compareSpot
  rw [Ordering.then_eq_eq, Ordering.then_eq_eq, Std.compare_eq_iff_eq, Std.compare_eq_iff_eq,
    Std.compare_eq_iff_eq, MarkerKind.rank_injective.eq_iff]
  simp only [spot, Prod.mk.injEq]
  tauto

/-- What comes between two markers of a spot belongs to it. -/
theorem spot_between {a b c : Marker} (hab : (compare a b).isLE = true)
    (hbc : (compare b c).isLE = true) (hac : a.spot = c.spot) : b.spot = a.spot := by
  rw [compare_eq] at hab hbc
  -- From one spot to the next the order does not go down, and it ends where it began.
  have hthere : (compareSpot a b).isLE = true := Ordering.isLE_left_of_isLE_then hab
  have hback : (compareSpot b a).isLE = true := by
    have hsame : compareSpot c a = .eq := (compareSpot_eq_iff c a).2 hac.symm
    refine Std.TransCmp.isLE_trans (Ordering.isLE_left_of_isLE_then hbc) ?_
    rw [hsame]
    rfl
  exact (compareSpot_eq_iff b a).1 (Std.OrientedCmp.isLE_antisymm hback hthere)

instance : Std.TransOrd Marker :=
  inferInstanceAs (Std.TransCmp (compareLex (compareOn Marker.start)
    (compareLex (compareOn Marker.stop)
      (compareLex (compareOn fun m => m.kind.rank) (compareOn Marker.comment)))))

instance : Std.LawfulEqOrd Marker where
  eq_of_compare := by
    intro a b h
    rw [compare_eq] at h
    obtain ⟨hspot, hcomment⟩ := Ordering.then_eq_eq.1 h
    exact eq_of_spot ((compareSpot_eq_iff a b).1 hspot) (Std.LawfulEqCmp.eq_of_compare hcomment)

end Marker

namespace WeaveRule

open Marker (Spot)

theorem markers_le_trans (a b c : Marker) (hab : markers.le a b = true) (hbc : markers.le b c = true) :
    markers.le a c = true := Std.TransCmp.isLE_trans hab hbc

theorem markers_le_total (a b : Marker) : (markers.le a b || markers.le b a) = true := by
  show ((compare a b).isLE || (compare b a).isLE) = true
  have hswap : compare b a = (compare a b).swap := Std.OrientedCmp.eq_swap
  rw [hswap]
  cases compare a b <;> rfl

theorem markers_le_antisymm (a b : Marker) (hab : markers.le a b = true)
    (hba : markers.le b a = true) : a = b :=
  Std.LawfulEqCmp.eq_of_compare (Std.OrientedCmp.isLE_antisymm hab hba)

/-- Whether a walk meets a marker with its position before another one. -/
def metFirst (a b : Marker × Nat) : Bool :=
  markers.le a.1 b.1 && (!markers.le b.1 a.1 || a.2 < b.2)

/-- No entry is met before itself. -/
theorem metFirst_self (entry : Marker × Nat) : metFirst entry entry = false := by
  unfold metFirst
  cases markers.le entry.1 entry.1 <;> simp

/-- A smaller marker is met first, and of equal ones the one in front. -/
theorem metFirst_of_le {a b : Marker × Nat} (hle : markers.le a.1 b.1 = true)
    (hposition : markers.le b.1 a.1 = true → a.2 < b.2) :
    metFirst a b = true ∧ metFirst b a = false := by
  unfold metFirst
  cases hge : markers.le b.1 a.1 with
  | false => simp [hle]
  | true =>
    have hlt : a.2 < b.2 := hposition hge
    simp only [hle, Bool.not_true, Bool.false_or, Bool.true_and, decide_eq_true_eq,
      decide_eq_false_iff_not]
    omega

/-- Markers of a spot belong together, and come in the order of their comments. -/
def markerGrouping : Grouping markers.inPlace Spot where
  key := Marker.spot
  pairable := fun _ => true
  ahead := metFirst
  le_trans := markers_le_trans
  le_total := markers_le_total
  key_between := fun _ _ _ => Marker.spot_between
  pairs_iff := fun a b => (Marker.equivalent_iff a b).trans ⟨fun h => ⟨rfl, h⟩, fun h => h.2⟩
  ahead_irrefl := metFirst_self
  ahead_of_le := fun _ _ _ => metFirst_of_le
  key_unite := fun _ _ => rfl
  position_unite := fun _ _ => rfl

/-! ## §2. Lineups. -/

/-- The markers of a spot in the order of their comments. -/
def lineup (spot : Spot) (items : List Marker) : List Marker :=
  (items.filter fun m => m.spot = spot).mergeSort markers.le

theorem lineup_perm (spot : Spot) (items : List Marker) :
    (lineup spot items).Perm (items.filter fun m => m.spot = spot) := List.mergeSort_perm _ _

theorem pairwise_lineup (spot : Spot) (items : List Marker) :
    (lineup spot items).Pairwise fun a b => markers.le a b = true :=
  List.pairwise_mergeSort markers_le_trans markers_le_total _

/-- A lineup holds the markers of its spot. -/
theorem mem_lineup {spot : Spot} {items : List Marker} {m : Marker} :
    m ∈ lineup spot items ↔ m ∈ items ∧ m.spot = spot := by
  rw [(lineup_perm spot items).mem_iff]
  simp

/-- There is one way to line markers up. -/
theorem eq_of_lined_up {a b : List Marker} (ha : a.Pairwise fun x y => markers.le x y = true)
    (hb : b.Pairwise fun x y => markers.le x y = true) (h : a.Perm b) : a = b :=
  List.Perm.eq_of_pairwise (fun x y _ _ => markers_le_antisymm x y) ha hb h

/-- A walk meets the markers of a spot as they are lined up. -/
theorem map_fst_ofKey_ranked (spot : Spot) (items : List Marker) (offset : Nat) :
    (markerGrouping.ofKey spot (markers.ranked items offset)).map (·.1) = lineup spot items := by
  have hwalk : markers.Walk (markers.ranked items offset) := markerGrouping.walk_ranked items offset
  refine eq_of_lined_up ?_ (pairwise_lineup spot items) ?_
  · exact List.pairwise_map.2 ((hwalk.imp fun h => h.1).filter _)
  · exact (markerGrouping.perm_filter_ranked items offset spot).trans (lineup_perm spot items).symm

/-- As many markers are ranked at a spot as there are in its lineup. -/
theorem length_ofKey_ranked (spot : Spot) (items : List Marker) (offset : Nat) :
    (markerGrouping.ofKey spot (markers.ranked items offset)).length = (lineup spot items).length := by
  rw [← map_fst_ofKey_ranked spot items offset, List.length_map]

/-! ## §3. What a merge makes of a spot. -/

/-- Of two markers of a spot the incoming one counts, wherever it goes. -/
theorem fst_unite_markers {older newer : Marker × Nat} (h : older.1.spot = newer.1.spot) :
    (markers.unite older newer).1 = newer.1 := by
  show (if older.1.comment = newer.1.comment then older else newer).1 = newer.1
  split
  · rename_i hcomment
    exact Marker.eq_of_spot h hcomment
  · rfl

/-- Of two equivalent markers one is taken as it is. -/
theorem markers_chooses : markers.Chooses := by
  intro older newer
  show (if older.1.comment = newer.1.comment then older else newer) = older ∨
    (if older.1.comment = newer.1.comment then older else newer) = newer
  split
  · exact .inl rfl
  · exact .inr rfl

/-- The entries of a spot, each pair united. -/
theorem ofKey_walked (spot : Spot) (stored incoming : List Marker) :
    markerGrouping.ofKey spot (markers.walked stored incoming)
      = List.zipWith markers.unite (markerGrouping.ofKey spot (markers.ranked stored 0))
          (markerGrouping.ofKey spot (markers.ranked incoming stored.length))
        ++ ((markerGrouping.ofKey spot (markers.ranked stored 0)).drop
            (markerGrouping.ofKey spot (markers.ranked incoming stored.length)).length
          ++ (markerGrouping.ofKey spot (markers.ranked incoming stored.length)).drop
            (markerGrouping.ofKey spot (markers.ranked stored 0)).length) := by
  have hunite : ∀ older newer : Marker × Nat, markerGrouping.key older.1 = markerGrouping.key newer.1 →
      markerGrouping.key (markers.unite older newer).1 = markerGrouping.key older.1 := by
    intro older newer hkey
    rw [fst_unite_markers hkey]
    exact hkey.symm
  exact markerGrouping.ofKey_weave rfl hunite (markerGrouping.walk_ranked stored 0)
    (markerGrouping.walk_ranked incoming stored.length)

/-- Where all markers belong to one spot, a union has the markers that came in. -/
theorem map_fst_zipWith_unite {spot : Spot} (stored incoming : List (Marker × Nat))
    (hstored : ∀ older ∈ stored, older.1.spot = spot)
    (hincoming : ∀ newer ∈ incoming, newer.1.spot = spot) :
    (List.zipWith markers.unite stored incoming).map (·.1)
      = (incoming.map (·.1)).take stored.length := by
  induction stored generalizing incoming with
  | nil => simp
  | cons older stored ih =>
    cases incoming with
    | nil => simp
    | cons newer incoming =>
      obtain ⟨holder, hstored⟩ := List.forall_mem_cons.1 hstored
      obtain ⟨hnewer, hincoming⟩ := List.forall_mem_cons.1 hincoming
      rw [List.zipWith_cons_cons, List.map_cons, List.map_cons, List.length_cons,
        List.take_succ_cons, ih incoming hstored hincoming,
        fst_unite_markers (holder.trans hnewer.symm)]

/-- The markers of a spot on a walk: all incoming ones, and the stored ones that
come behind as many others. -/
theorem map_fst_ofKey_walked (spot : Spot) (stored incoming : List Marker) :
    (markerGrouping.ofKey spot (markers.walked stored incoming)).map (·.1)
      = lineup spot incoming ++ (lineup spot stored).drop (lineup spot incoming).length := by
  have hspot : ∀ (items : List Marker) (offset : Nat),
      ∀ entry ∈ markerGrouping.ofKey spot (markers.ranked items offset), entry.1.spot = spot :=
    fun items offset entry hentry => (markerGrouping.mem_ofKey.1 hentry).2
  rw [ofKey_walked, List.map_append, List.map_append,
    map_fst_zipWith_unite _ _ (hspot stored 0) (hspot incoming stored.length), List.map_drop,
    List.map_drop, map_fst_ofKey_ranked, map_fst_ofKey_ranked, length_ofKey_ranked,
    length_ofKey_ranked]
  -- One of the two rests is empty.
  rcases Nat.le_total (lineup spot incoming).length (lineup spot stored).length with hle | hle
  · rw [List.take_of_length_le hle, List.drop_of_length_le hle, List.append_nil]
  · rw [List.drop_of_length_le hle, List.nil_append, List.take_append_drop, List.append_nil]

/-- **The markers of a spot in a merged list.** -/
theorem perm_filter_mergeLists (spot : Spot) (stored incoming : List Marker) :
    ((markers.mergeLists stored incoming).filter fun m => m.spot = spot).Perm
      (lineup spot incoming ++ (lineup spot stored).drop (lineup spot incoming).length) := by
  rw [← map_fst_ofKey_walked]
  refine ((restored_perm (markers.walked stored incoming)).filter _).trans (List.Perm.of_eq ?_)
  rw [List.filter_map]
  rfl

/-! ## §4. What is kept and what is taken. -/

/-- A lineup is as long as the spot is frequent. -/
theorem length_lineup (spot : Spot) (items : List Marker) :
    (lineup spot items).length = (items.map Marker.spot).count spot := by
  rw [(lineup_perm spot items).length_eq, List.count, List.countP_map, List.countP_eq_length_filter]
  refine congrArg List.length (List.filter_congr fun m _ => ?_)
  rw [Bool.eq_iff_iff, decide_eq_true_eq, Function.comp_apply, beq_iff_eq]

/-- A spot stands in the merged list as often as on the side where it stands more
often. -/
theorem count_spot_mergeLists (spot : Spot) (stored incoming : List Marker) :
    ((markers.mergeLists stored incoming).map Marker.spot).count spot
      = max ((stored.map Marker.spot).count spot) ((incoming.map Marker.spot).count spot) := by
  have hlength := (perm_filter_mergeLists spot stored incoming).length_eq
  rw [← (lineup_perm spot _).length_eq, List.length_append, List.length_drop] at hlength
  simp only [length_lineup] at hlength
  omega

theorem count_filter_spot (m : Marker) (items : List Marker) :
    (items.filter fun other => other.spot = m.spot).count m = items.count m :=
  List.count_filter (by simp)

/-- No incoming marker gets lost. -/
theorem count_le_mergeLists (m : Marker) (stored incoming : List Marker) :
    incoming.count m ≤ (markers.mergeLists stored incoming).count m := by
  have hcount := (perm_filter_mergeLists m.spot stored incoming).count_eq m
  rw [count_filter_spot, List.count_append, (lineup_perm m.spot incoming).count_eq,
    count_filter_spot] at hcount
  omega

/-- No two markers of the list are equivalent. -/
def Distinct (items : List Marker) : Prop := items.Pairwise fun a b => ¬ a.equivalent b = true

instance (items : List Marker) : Decidable (Distinct items) :=
  inferInstanceAs (Decidable (items.Pairwise _))

/-- Distinct markers are at different spots. -/
theorem Distinct.nodup_spots {items : List Marker} (h : Distinct items) :
    (items.map Marker.spot).Nodup :=
  List.pairwise_map.2 (h.imp fun hab heq => hab ((Marker.equivalent_iff _ _).2 heq))

/-- The only entry of its spot. -/
theorem Distinct.ofKey_ranked {items : List Marker} (h : Distinct items) {offset : Nat}
    {entry : Marker × Nat} (hentry : entry ∈ items.zipIdx offset) :
    markerGrouping.ofKey entry.1.spot (markers.ranked items offset) = [entry] := by
  have hmem : entry ∈ markerGrouping.ofKey entry.1.spot (markers.ranked items offset) :=
    markerGrouping.mem_ofKey.2 ⟨(markers.ranked_perm items offset).mem_iff.2 hentry, rfl⟩
  have hlength := List.nodup_iff_count.1 h.nodup_spots entry.1.spot
  rw [← length_lineup, ← length_ofKey_ranked _ items offset] at hlength
  obtain ⟨only, honly⟩ := List.length_eq_one_iff.1
    (Nat.le_antisymm hlength (List.length_pos_of_mem hmem))
  rw [honly, List.mem_singleton] at hmem
  rw [honly, hmem]

/-- A walked entry is found under its own spot. -/
theorem mem_walked_iff {stored incoming : List Marker} {entry : Marker × Nat} :
    entry ∈ markers.walked stored incoming
      ↔ entry ∈ markerGrouping.ofKey entry.1.spot (markers.walked stored incoming) := by
  rw [markerGrouping.mem_ofKey]
  exact ⟨fun h => ⟨h, rfl⟩, fun h => h.1⟩

/-- Every marker stands at some position. -/
theorem exists_entry {items : List Marker} {m : Marker} (h : m ∈ items) (offset : Nat) :
    ∃ entry ∈ items.zipIdx offset, entry.1 = m := by
  rw [← List.zipIdx_map_fst offset items] at h
  exact List.mem_map.1 h

/-- Stored and incoming markers have different positions. -/
theorem ne_of_mem_zipIdx {stored incoming : List Marker} {older newer : Marker × Nat}
    (holder : older ∈ stored.zipIdx) (hnewer : newer ∈ incoming.zipIdx stored.length) :
    older ≠ newer := by
  intro heq
  have hlow : older.2 < 0 + stored.length := List.snd_lt_add_of_mem_zipIdx holder
  have hhigh : stored.length ≤ newer.2 := List.le_snd_of_mem_zipIdx hnewer
  rw [heq] at hlow
  omega

section Distinct

variable {stored incoming : List Marker}

/-- Two markers of a spot meet. -/
theorem ofKey_walked_pair (hstored : Distinct stored) (hincoming : Distinct incoming)
    {older newer : Marker × Nat} (holder : older ∈ stored.zipIdx)
    (hnewer : newer ∈ incoming.zipIdx stored.length) (hspot : older.1.spot = newer.1.spot) :
    markerGrouping.ofKey older.1.spot (markers.walked stored incoming)
      = [markers.unite older newer] := by
  have hleft := hstored.ofKey_ranked holder
  have hright := hincoming.ofKey_ranked hnewer
  rw [← hspot] at hright
  rw [ofKey_walked, hleft, hright]
  rfl

/-- A spot that no marker is at has no entries. -/
theorem ofKey_ranked_eq_nil {items : List Marker} {spot : Spot} (offset : Nat)
    (h : ∀ m ∈ items, m.spot ≠ spot) :
    markerGrouping.ofKey spot (markers.ranked items offset) = [] :=
  markerGrouping.ofKey_eq_nil fun entry hentry => h entry.1 (markers.mem_of_mem_ranked hentry)

/-- A stored marker is kept if no incoming one says something else of its spot. -/
theorem mem_walked_stored (hstored : Distinct stored) (hincoming : Distinct incoming)
    {older : Marker × Nat} (holder : older ∈ stored.zipIdx) :
    older ∈ markers.walked stored incoming
      ↔ ¬ ∃ newer ∈ incoming, older.1.equivalent newer = true ∧ older.1.comment ≠ newer.comment := by
  rw [mem_walked_iff]
  by_cases hpartner : ∃ newer ∈ incoming, older.1.spot = newer.spot
  · obtain ⟨partner, hmem, hspot⟩ := hpartner
    obtain ⟨newer, hnewer, rfl⟩ := exists_entry hmem stored.length
    rw [ofKey_walked_pair hstored hincoming holder hnewer hspot, List.mem_singleton]
    show older = (if older.1.comment = newer.1.comment then older else newer) ↔ _
    split
    · rename_i hcomment
      refine iff_of_true rfl ?_
      rintro ⟨other, hother, hequivalent, hdiffers⟩
      -- The other one is the partner itself.
      have hsame := (Marker.equivalent_iff _ _).1 hequivalent
      rw [List.inj_on_of_nodup_map hincoming.nodup_spots hother hmem (hsame.symm.trans hspot)]
        at hdiffers
      exact hdiffers hcomment
    · rename_i hcomment
      exact iff_of_false (ne_of_mem_zipIdx holder hnewer) fun hnone =>
        hnone ⟨newer.1, hmem, (Marker.equivalent_iff _ _).2 hspot, hcomment⟩
  · have hnobody : markerGrouping.ofKey older.1.spot (markers.ranked incoming stored.length) = [] :=
      ofKey_ranked_eq_nil _ fun newer hnewer hspot => hpartner ⟨newer, hnewer, hspot.symm⟩
    rw [ofKey_walked, hnobody, hstored.ofKey_ranked holder]
    refine iff_of_true (by simp) ?_
    rintro ⟨newer, hnewer, hequivalent, _⟩
    exact hpartner ⟨newer, hnewer, (Marker.equivalent_iff _ _).1 hequivalent⟩

/-- An incoming marker is taken if it is not stored. -/
theorem mem_walked_incoming (hstored : Distinct stored) (hincoming : Distinct incoming)
    {newer : Marker × Nat} (hnewer : newer ∈ incoming.zipIdx stored.length) :
    newer ∈ markers.walked stored incoming ↔ newer.1 ∉ stored := by
  rw [mem_walked_iff]
  by_cases hpartner : ∃ older ∈ stored, older.spot = newer.1.spot
  · obtain ⟨partner, hmem, hspot⟩ := hpartner
    obtain ⟨older, holder, rfl⟩ := exists_entry hmem 0
    rw [← hspot, ofKey_walked_pair hstored hincoming holder hnewer hspot, List.mem_singleton]
    show newer = (if older.1.comment = newer.1.comment then older else newer) ↔ _
    split
    · rename_i hcomment
      refine iff_of_false (ne_of_mem_zipIdx holder hnewer).symm fun hnew => hnew ?_
      rwa [← Marker.eq_of_spot hspot hcomment]
    · rename_i hcomment
      refine iff_of_true rfl fun hknown => hcomment ?_
      rw [List.inj_on_of_nodup_map hstored.nodup_spots hmem hknown hspot]
  · have hnobody : markerGrouping.ofKey newer.1.spot (markers.ranked stored 0) = [] :=
      ofKey_ranked_eq_nil _ fun older holder hspot => hpartner ⟨older, holder, hspot⟩
    rw [ofKey_walked, hnobody, hincoming.ofKey_ranked hnewer]
    exact iff_of_true (by simp) fun hknown => hpartner ⟨newer.1, hknown, rfl⟩

end Distinct

/-- **A merge of two lists of markers.**  It keeps a part of the stored markers
and takes a part of the incoming ones behind them.  Every spot stands in the
result as often as on the side where it stands more often, and no incoming
marker is lost.  If no list has two markers of a spot, a stored marker makes
way for an incoming one with another comment, and what is taken is what was not
there.  The outcome tells whether the list changed. -/
theorem merge_markers (stored incoming : List Marker) :
    ∃ kept taken : List Marker,
      (markers.merge stored incoming).value = kept ++ taken ∧
      kept.Sublist stored ∧ taken.Sublist incoming ∧
      (∀ spot, ((markers.merge stored incoming).value.map Marker.spot).count spot
        = max ((stored.map Marker.spot).count spot) ((incoming.map Marker.spot).count spot)) ∧
      (∀ m, incoming.count m ≤ (markers.merge stored incoming).value.count m) ∧
      (Distinct stored → Distinct incoming →
        kept = stored.filter (fun older => ¬ ∃ newer ∈ incoming,
          older.equivalent newer = true ∧ older.comment ≠ newer.comment) ∧
        taken = incoming.filter (fun newer => newer ∉ stored)) ∧
      ((markers.merge stored incoming).outcome = .updated
        ↔ (markers.merge stored incoming).value ≠ stored) ∧
      ((markers.merge stored incoming).outcome = .unchanged
        ↔ (markers.merge stored incoming).value = stored) := by
  have hexact := Merged.exact_replace stored (markers.mergeLists stored incoming)
  refine ⟨markers.kept stored incoming, markers.taken stored incoming,
    markers.mergeLists_eq_kept markers_chooses stored incoming,
    markers.kept_sublist stored incoming, markers.taken_sublist stored incoming,
    fun spot => count_spot_mergeLists spot stored incoming,
    fun m => count_le_mergeLists m stored incoming, fun hstored hincoming => ⟨?_, ?_⟩,
    hexact.updated_iff, hexact.unchanged_iff⟩
  · rw [← map_fst_filter_zipIdx stored 0]
    exact congrArg _ (List.filter_congr fun older holder =>
      decide_eq_decide.2 (mem_walked_stored hstored hincoming holder))
  · rw [← map_fst_filter_zipIdx incoming stored.length]
    exact congrArg _ (List.filter_congr fun newer hnewer =>
      decide_eq_decide.2 (mem_walked_incoming hstored hincoming hnewer))

/-- Where the credits start, and a recap. -/
def creditsAndRecap : List Marker := [⟨.credits, 6000, none, none⟩, ⟨.recap, 0, some 90, none⟩]

/-- The same with a comment on the credits. -/
def recapAndMidCredits : List Marker :=
  [⟨.recap, 0, some 90, none⟩, ⟨.credits, 6000, none, some "mid-credits"⟩]

theorem merge_markers_midCredits :
    Distinct creditsAndRecap ∧ Distinct recapAndMidCredits ∧
    ∃ kept taken, (markers.merge creditsAndRecap recapAndMidCredits).value = kept ++ taken ∧
      kept = [⟨.recap, 0, some 90, none⟩] ∧
      taken = [⟨.credits, 6000, none, some "mid-credits"⟩] := by
  obtain ⟨kept, taken, hvalue, _, _, _, _, hdistinct, _⟩ :=
    merge_markers creditsAndRecap recapAndMidCredits
  obtain ⟨hkept, htaken⟩ := hdistinct (by decide) (by decide)
  exact ⟨by decide, by decide, kept, taken, hvalue, hkept.trans (by decide), htaken.trans (by decide)⟩

end WeaveRule

end FilmCatalog
