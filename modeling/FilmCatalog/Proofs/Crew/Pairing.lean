/-
  FilmCatalog.Proofs.Crew.Pairing
  ───────────────────────────────
  **WHO IS PAIRED WITH WHOM WHEN CREWS ARE MERGED.**

  Credits belong together by name.  Among the credits of one name each side is
  ranked by contribution, then by references, then by position, and equal ranks
  make a pair; credits without a name are never paired (`Credit.grouping`).  So
  each department of a merged crew is told by the two that it comes from:

      the stored credits in their order, each united with its partner,
      then the incoming credits without a partner, in theirs

  Roles are numbered anew for that, and the new names lead back to the merged
  credits (`creditsOf_ofCredits`).
-/
import Mathlib.Algebra.Order.BigOperators.Group.Finset
import FilmCatalog.Proofs.Crew.Loading
import FilmCatalog.Proofs.Crew.Merging
import FilmCatalog.Proofs.Grouping.Lists

namespace FilmCatalog

namespace Credit

/-! ## §1. How credits are grouped. -/

/-- Credits of one name: by contribution, then by references. -/
def compareWork (a b : Credit) : Ordering :=
  (compare a.contribution b.contribution).then
    (List.compareLex compareRef a.refs.entries b.refs.entries)

theorem compare_eq (a b : Credit) :
    compare a b = (compare a.name b.name).then (compareWork a b) := rfl

instance : Std.TransCmp compareRef :=
  inferInstanceAs (Std.TransCmp (compareLex (compareOn Prod.fst) (compareOn Prod.snd)))

instance : Std.TransCmp fun a b : Credit => List.compareLex compareRef a.refs.entries b.refs.entries where
  eq_swap := Std.OrientedCmp.eq_swap
  isLE_trans := Std.TransCmp.isLE_trans

instance : Std.TransCmp compareWork :=
  inferInstanceAs (Std.TransCmp (compareLex (compareOn Credit.contribution)
    fun a b => List.compareLex compareRef a.refs.entries b.refs.entries))

instance : Std.TransOrd Credit :=
  inferInstanceAs (Std.TransCmp (compareLex (compareOn Credit.name) compareWork))

/-- Whether a credit comes ahead of another of its name: by contribution, then
by references, then by position. -/
def ahead (a b : Credit × Nat) : Bool :=
  (compareWork a.1 b.1).then (compare a.2 b.2) == .lt

/-- Credits in order have names in order. -/
theorem compare_name_of_le {a b : Credit} (h : rule.le a b = true) :
    (compare a.name b.name).isLE = true := by
  have hle : ((compare a.name b.name).then (compareWork a b)).isLE = true := h
  rcases Ordering.isLE_then_iff_or.1 hle with hlt | heq
  · rw [hlt]
    rfl
  · rw [heq.1]
    rfl

/-- **Credits are grouped by name.** -/
def grouping : Grouping rule String where
  key := Credit.name
  pairable := fun name => name ≠ ""
  ahead := ahead
  le_trans := fun _ _ _ hab hbc => Std.TransCmp.isLE_trans hab hbc
  le_total := by
    intro a b
    have hback : compare b a = (compare a b).swap := Std.OrientedCmp.eq_swap
    show ((compare a b).isLE || (compare b a).isLE) = true
    rw [hback]
    cases compare a b <;> rfl
  key_between := by
    intro a b c hab hbc hac
    have hle := compare_name_of_le hab
    have hge := compare_name_of_le hbc
    rw [← show a.name = c.name from hac] at hge
    exact Std.LawfulEqCmp.eq_of_compare (Std.OrientedCmp.isLE_antisymm hge hle)
  pairs_iff := by
    intro a b
    show (decide (a.name ≠ "") && decide (a.name = b.name)) = true ↔ _
    rw [Bool.and_eq_true, decide_eq_true_eq (p := a.name = b.name)]
  ahead_irrefl := by
    intro entry
    simp [ahead, Std.ReflCmp.compare_self]
  ahead_of_le := by
    intro a b hkey hle hposition
    -- The names agree, so the work decides, and where it is the same the position.
    have hname : compare a.1.name b.1.name = .eq := by
      rw [show a.1.name = b.1.name from hkey]
      exact Std.ReflCmp.compare_self
    have hwork : compare a.1 b.1 = compareWork a.1 b.1 := by
      rw [compare_eq, hname]
      rfl
    have hback : compareWork b.1 a.1 = (compareWork a.1 b.1).swap := Std.OrientedCmp.eq_swap
    have hswap : compare b.1 a.1 = (compare a.1 b.1).swap := Std.OrientedCmp.eq_swap
    have hle : (compareWork a.1 b.1).isLE = true := hwork ▸ hle
    have hposition : (compare b.1 a.1).isLE = true → a.2 < b.2 := hposition
    rw [hswap, hwork] at hposition
    unfold ahead
    rw [hback]
    cases hcase : compareWork a.1 b.1 with
    | lt => exact ⟨rfl, rfl⟩
    | gt =>
      rw [hcase] at hle
      cases hle
    | eq =>
      rw [hcase] at hposition
      have hlt := hposition rfl
      have hforth : compare a.2 b.2 = .lt := Nat.compare_eq_lt.2 hlt
      have hback : compare b.2 a.2 = .gt := Nat.compare_eq_gt.2 hlt
      rw [hforth, hback]
      exact ⟨rfl, rfl⟩
  key_unite := fun _ _ => rfl
  position_unite := fun _ _ => rfl

/-- **What becomes of stored credits** in a merged list: each has its place, and
a partner leaves it the name, replaces the contribution by its own if it has
one, and adds the references under keys that are not there yet. -/
structure Unites (older newer merged : List Credit) : Prop where
  paired : ∀ a ∈ older.zipIdx, ∀ b ∈ newer.zipIdx older.length,
    grouping.paired older.zipIdx (newer.zipIdx older.length) a b = true →
      ∃ credit, merged[a.2]? = some credit ∧ credit.name = a.1.name ∧
        credit.contribution = b.1.contribution.or a.1.contribution ∧
        ∀ key, credit.refs.get? key = (a.1.refs.get? key).or (b.1.refs.get? key)
  alone : ∀ a ∈ older.zipIdx,
    (∀ b ∈ newer.zipIdx older.length,
      grouping.paired older.zipIdx (newer.zipIdx older.length) a b = false) →
        merged[a.2]? = some a.1

/-- A united credit has the references of both, and under a common key the
stored one. -/
theorem get?_refs_unite (stored incoming : Credit) (key : String) :
    (unite stored incoming).refs.get? key
      = (stored.refs.get? key).or (incoming.refs.get? key) :=
  SortedMap.get?_override incoming.refs stored.refs key

/-- **Lists of credits are united in this way.** -/
theorem unites_united (older newer : List Credit) :
    Unites older newer (grouping.united older newer) := by
  have hplace : ∀ a ∈ older.zipIdx, (grouping.united older newer)[a.2]?
      = some (grouping.settled older.zipIdx (newer.zipIdx older.length) a).1 := by
    intro a ha
    rw [grouping.getElem?_united, List.mk_mem_zipIdx_iff_getElem?.1 ha, Option.map_some]
  refine ⟨fun a ha b hb hpaired => ?_, fun a ha halone => ?_⟩
  · refine ⟨unite a.1 b.1, ?_, rfl, rfl, get?_refs_unite a.1 b.1⟩
    rw [hplace a ha, grouping.settled_of_paired hb hpaired]
    rfl
  · rw [hplace a ha, grouping.settled_eq_self halone]

/-- **The merged list of credits.** -/
theorem mergeLists_eq (stored incoming : List Credit) :
    rule.mergeLists stored incoming
      = grouping.united stored incoming ++ grouping.unpaired stored incoming :=
  grouping.mergeLists_eq stored incoming

/-- How often a name stands in a merged list of credits. -/
theorem count_name_mergeLists (stored incoming : List Credit) (name : String) :
    ((rule.mergeLists stored incoming).map Credit.name).count name
        + (if name ≠ "" then
            min ((stored.map Credit.name).count name) ((incoming.map Credit.name).count name) else 0)
      = (stored.map Credit.name).count name + (incoming.map Credit.name).count name := by
  have hcount := grouping.count_mergeLists stored incoming name
  have hpairable : grouping.pairable name = true ↔ name ≠ "" := decide_eq_true_iff
  simp only [hpairable] at hcount
  exact hcount

end Credit

namespace Crew

/-! ## §2. The credits of a merged crew. -/

/-- The crew that a merge makes of two. -/
def mergedCrew (stored incoming : Crew) : Crew :=
  ofCredits (mergedCredits stored incoming .directors) (mergedCredits stored incoming .writers)
    (mergedCredits stored incoming .cast)

/-- Two crews without dangling roles are merged, and the outcome tells whether
the crew changed. -/
theorem merge_eq_mergedCrew {stored incoming : Crew} (hstored : stored.Attached)
    (hincoming : incoming.Attached) :
    merge stored incoming = .ok (.replace stored (mergedCrew stored incoming)) :=
  merge_eq hstored hincoming

theorem attached_ofCredits (directors writers cast : List Credit) :
    (ofCredits directors writers cast).Attached := by
  rw [ofCredits_eq]
  exact attached_ofAppearances _ _ _

theorem plainKeys_creditsOf (c : Crew) (department : Department) :
    ∀ credit ∈ c.creditsOf department, Person.PlainKeys credit.refs := by
  intro credit hcredit
  obtain ⟨appearance, _, rfl⟩ := List.mem_map.1 hcredit
  exact appearance.1.plainKeys_refMap

/-- The references of merged credits have plain keys. -/
theorem plainKeys_mergedCredits (stored incoming : Crew) (department : Department) :
    ∀ credit ∈ mergedCredits stored incoming department, Person.PlainKeys credit.refs := by
  refine Credit.rule.forall_mergeLists ?_ (stored.plainKeys_creditsOf department)
    (incoming.plainKeys_creditsOf department)
  intro a b i j ha hb
  exact Person.plainKeys_override hb ha

/-- A credit is read back from the person that was made of it. -/
theorem creditOf_creditAppearance {credit : Credit} (h : Person.PlainKeys credit.refs) :
    creditOf (creditAppearance credit) = credit := by
  show Credit.mk credit.name (Person.ofRefMap credit.name credit.refs).refMap credit.contribution = _
  rw [Person.refMap_ofRefMap credit.name h]

/-- **Numbered credits lead back to the credits.** -/
theorem creditsOf_ofCredits {list : Department → List Credit}
    (h : ∀ department, ∀ credit ∈ list department, Person.PlainKeys credit.refs)
    (department : Department) :
    (ofCredits (list .directors) (list .writers) (list .cast)).creditsOf department
      = list department := by
  unfold creditsOf
  rw [ofCredits_eq,
    appearances_ofAppearances (fun department => (list department).map creditAppearance) department,
    List.map_map]
  refine (List.map_congr_left fun credit hcredit => ?_).trans (List.map_id _)
  exact creditOf_creditAppearance (h department credit hcredit)

/-- The credits of the merged crew are the merged credits. -/
theorem creditsOf_mergedCrew (stored incoming : Crew) (department : Department) :
    (mergedCrew stored incoming).creditsOf department = mergedCredits stored incoming department :=
  creditsOf_ofCredits (plainKeys_mergedCredits stored incoming) department

/-- Each attached role has its credit. -/
theorem map_some_creditsOf {c : Crew} (h : c.Attached) (department : Department) :
    (c.creditsOf department).map some = (c.roles department).map fun role =>
      (personAt? c.names role.id).map fun person => .ofPerson person role.contribution := by
  have hall : ∀ roles : List Role, (∀ role ∈ roles, 0 ≤ role.id ∧ role.id < c.names.length) →
      ((appearances c.names roles).map creditOf).map some = roles.map fun role =>
        (personAt? c.names role.id).map fun person => .ofPerson person role.contribution := by
    intro roles hroles
    induction roles with
    | nil => rfl
    | cons role rest ih =>
      obtain ⟨hrole, hrest⟩ := List.forall_mem_cons.1 hroles
      obtain ⟨person, hperson⟩ := Option.isSome_iff_exists.1 (isSome_personAt?_iff.2 hrole)
      rw [appearances_cons hperson, List.map_cons, List.map_cons, List.map_cons, ih hrest, hperson]
      rfl
  exact hall _ (h.roles department)

/-- Without dangling roles there are as many credits as roles. -/
theorem length_creditsOf {c : Crew} (h : c.Attached) (department : Department) :
    (c.creditsOf department).length = (c.roles department).length := by
  have hlength := congrArg List.length (map_some_creditsOf h department)
  rwa [List.length_map, List.length_map] at hlength

/-- The credit of a role is that of the person whom it points at. -/
theorem getElem?_creditsOf {c : Crew} (h : c.Attached) {department : Department} {i : Nat}
    {role : Role} (hrole : (c.roles department)[i]? = some role) :
    ∃ person, personAt? c.names role.id = some person ∧
      (c.creditsOf department)[i]? = some (.ofPerson person role.contribution) := by
  have hplace := congrArg (·[i]?) (map_some_creditsOf h department)
  simp only [List.getElem?_map, hrole, Option.map_some] at hplace
  obtain ⟨credit, hcredit, hsome⟩ := Option.map_eq_some_iff.1 hplace
  obtain ⟨person, hperson, rfl⟩ := Option.map_eq_some_iff.1 hsome.symm
  exact ⟨person, hperson, hcredit⟩

/-! ## §3. How many roles there are. -/

/-- If every pair is counted once for each name, it is counted once altogether. -/
theorem length_add_sum_min {stored incoming merged : List String}
    (h : ∀ name, merged.count name
        + (if name ≠ "" then min (stored.count name) (incoming.count name) else 0)
      = stored.count name + incoming.count name) :
    merged.length
        + ∑ name ∈ stored.toFinset.erase "", min (stored.count name) (incoming.count name)
      = stored.length + incoming.length := by
  let all := (stored ++ incoming ++ merged).toFinset
  have hlength : ∀ list : List String, (∀ name ∈ list, name ∈ all) →
      ∑ name ∈ all, list.count name = list.length :=
    fun list hlist => by
      have hcard := Multiset.sum_count_eq_card (s := all) (m := (list : Multiset String)) hlist
      simpa only [Multiset.coe_count, Multiset.coe_card] using hcard
  -- Names that are missing on the stored side, and the empty one, add nothing.
  have hpairs : ∑ name ∈ all,
        (if name ≠ "" then min (stored.count name) (incoming.count name) else 0)
      = ∑ name ∈ stored.toFinset.erase "", min (stored.count name) (incoming.count name) := by
    rw [← Finset.sum_filter]
    refine (Finset.sum_subset ?_ ?_).symm
    · intro name hname
      obtain ⟨hne, hmem⟩ := Finset.mem_erase.1 hname
      rw [Finset.mem_filter, List.mem_toFinset]
      simp [List.mem_toFinset.1 hmem, hne]
    · intro name hname hnot
      have hmissing : name ∉ stored := fun hmem =>
        hnot (Finset.mem_erase.2 ⟨(Finset.mem_filter.1 hname).2, List.mem_toFinset.2 hmem⟩)
      rw [List.count_eq_zero.2 hmissing, Nat.zero_min]
  calc merged.length
        + ∑ name ∈ stored.toFinset.erase "", min (stored.count name) (incoming.count name)
      = ∑ name ∈ all, (merged.count name
          + if name ≠ "" then min (stored.count name) (incoming.count name) else 0) := by
        rw [Finset.sum_add_distrib, hpairs, hlength merged fun name hname => by simp [all, hname]]
    _ = ∑ name ∈ all, (stored.count name + incoming.count name) :=
        Finset.sum_congr rfl fun name _ => h name
    _ = stored.length + incoming.length := by
        rw [Finset.sum_add_distrib, hlength stored fun name hname => by simp [all, hname],
          hlength incoming fun name hname => by simp [all, hname]]

/-! ## §4. The merge of crews. -/

/-- **What a merge of crews gives.**  Crews without dangling roles can be
merged.  Resolved through its names, each department of the merged crew has the
stored roles in their order, each united with the incoming one of the same name
and rank, and then the incoming roles without a partner in theirs; each pair
counts once. -/
theorem merge_pairs_by_rank {stored incoming : Crew} (hstored : stored.dangling? = none)
    (hincoming : incoming.dangling? = none) :
    ∃ merged, merge stored incoming = .ok merged ∧ ∀ department, ∃ older newer,
      credits department stored.names (stored.roles department) = .ok older ∧
      credits department incoming.names (incoming.roles department) = .ok newer ∧
      credits department merged.value.names (merged.value.roles department)
        = .ok (Credit.grouping.united older newer ++ Credit.grouping.unpaired older newer) ∧
      Credit.Unites older newer (Credit.grouping.united older newer) ∧
      (merged.value.roles department).length
          + ∑ name ∈ (older.map Credit.name).toFinset.erase "",
              min ((older.map Credit.name).count name) ((newer.map Credit.name).count name)
        = (stored.roles department).length + (incoming.roles department).length := by
  have hattached := dangling?_eq_none_iff.1 hstored
  have hfresh := dangling?_eq_none_iff.1 hincoming
  refine ⟨_, merge_eq_mergedCrew hattached hfresh, fun department => ?_⟩
  have hmerged : (mergedCrew stored incoming).Attached := attached_ofCredits _ _ _
  refine ⟨stored.creditsOf department, incoming.creditsOf department,
    credits_eq department (hattached.roles department),
    credits_eq department (hfresh.roles department), ?_, Credit.unites_united _ _, ?_⟩
  · rw [← Credit.mergeLists_eq]
    refine (credits_eq department (hmerged.roles department)).trans (congrArg Except.ok ?_)
    exact creditsOf_mergedCrew stored incoming department
  · have hsum := length_add_sum_min
      (Credit.count_name_mergeLists (stored.creditsOf department) (incoming.creditsOf department))
    rw [List.length_map, List.length_map, List.length_map] at hsum
    show ((mergedCrew stored incoming).roles department).length + _ = _
    rw [← length_creditsOf hmerged, creditsOf_mergedCrew, ← length_creditsOf hattached,
      ← length_creditsOf hfresh]
    exact hsum

/-- Two roles of one person, and one of somebody without a name. -/
def twoRoles : Crew where
  directors := []
  writers := []
  cast := [⟨0, some "Extra"⟩, ⟨1, none⟩, ⟨0, none⟩]
  names := [⟨"Sigourney Weaver", ["imdb:nm1"]⟩, ⟨"", []⟩]

/-- A third role of that person, with other references. -/
def thirdRole : Crew where
  directors := []
  writers := []
  cast := [⟨1, none⟩, ⟨0, some "Ripley"⟩]
  names := [⟨"Sigourney Weaver", ["tmdb:12", "imdb:nm2"]⟩, ⟨"", []⟩]

/-- The third role goes to the stored one without a contribution, since that
comes ahead of the other one. -/
theorem merge_pairs_two_roles :
    twoRoles.dangling? = none ∧ thirdRole.dangling? = none ∧
    ∃ merged, merge twoRoles thirdRole = .ok merged ∧
      credits .cast merged.value.names (merged.value.roles .cast) = .ok
        [⟨"Sigourney Weaver", .ofList [("imdb", "nm1")], some "Extra"⟩, ⟨"", .empty, none⟩,
          ⟨"Sigourney Weaver", .ofList [("imdb", "nm1"), ("tmdb", "12")], some "Ripley"⟩,
          ⟨"", .empty, none⟩] := by
  have hstored : twoRoles.dangling? = none := by decide +kernel
  have hincoming : thirdRole.dangling? = none := by decide +kernel
  obtain ⟨merged, hmerged, hdepartments⟩ := merge_pairs_by_rank hstored hincoming
  obtain ⟨older, newer, holder, hnewer, hcredits, _⟩ := hdepartments .cast
  refine ⟨hstored, hincoming, merged, hmerged, hcredits.trans ?_⟩
  obtain rfl : older = twoRoles.creditsOf .cast :=
    Except.ok.inj (holder.symm.trans (by decide +kernel))
  obtain rfl : newer = thirdRole.creditsOf .cast :=
    Except.ok.inj (hnewer.symm.trans (by decide +kernel))
  decide +kernel

/-! ## §5. What is left of the stored crew. -/

/-- **What a merge keeps of the stored crew**: the roles of each department
still begin with those of the same people, and no reference is lost or
replaced. -/
def Kept (stored merged : Crew) : Prop :=
  ∀ (department : Department) (i : Nat) (role : Role), (stored.roles department)[i]? = some role →
    ∃ (kept : Role) (older newer : Person), (merged.roles department)[i]? = some kept ∧
      personAt? stored.names role.id = some older ∧ personAt? merged.names kept.id = some newer ∧
      newer.name = older.name ∧
      ∀ key value, older.refMap.get? key = some value → newer.refMap.get? key = some value

/-- A credit loses neither its name nor a reference. -/
theorem settled_keeps (older newer : List (Credit × Nat)) (entry : Credit × Nat) :
    (Credit.grouping.settled older newer entry).1.name = entry.1.name ∧
      ∀ key value, entry.1.refs.get? key = some value →
        (Credit.grouping.settled older newer entry).1.refs.get? key = some value := by
  unfold Grouping.settled
  split
  · refine ⟨rfl, fun key value hvalue => ?_⟩
    show (Credit.unite entry.1 _).refs.get? key = some value
    rw [Credit.get?_refs_unite, hvalue, Option.some_or]
  · exact ⟨rfl, fun _ _ hvalue => hvalue⟩

/-- **A merge keeps the stored crew.** -/
theorem kept_mergedCrew {stored : Crew} (hstored : stored.Attached) (incoming : Crew) :
    stored.Kept (mergedCrew stored incoming) := by
  have hattached : (mergedCrew stored incoming).Attached := attached_ofCredits _ _ _
  intro department i role hrole
  obtain ⟨older, holder, hcredit⟩ := getElem?_creditsOf hstored hrole
  -- The credit at the place of the stored one is what became of it.
  have hmerged : ((mergedCrew stored incoming).creditsOf department)[i]?
      = some (Credit.grouping.settled (stored.creditsOf department).zipIdx
          ((incoming.creditsOf department).zipIdx (stored.creditsOf department).length)
          (.ofPerson older role.contribution, i)).1 := by
    have hi := (List.getElem?_eq_some_iff.1 hcredit).1
    rw [creditsOf_mergedCrew, mergedCredits, Credit.mergeLists_eq,
      List.getElem?_append_left (by rwa [Credit.grouping.length_united]),
      Credit.grouping.getElem?_united, hcredit, Option.map_some]
  obtain ⟨kept, hkept⟩ : ∃ kept, ((mergedCrew stored incoming).roles department)[i]? = some kept := by
    have hi := (List.getElem?_eq_some_iff.1 hmerged).1
    rw [length_creditsOf hattached] at hi
    exact ⟨_, List.getElem?_eq_getElem hi⟩
  obtain ⟨newer, hnewer, hfound⟩ := getElem?_creditsOf hattached hkept
  have hsame := Option.some.inj (hmerged.symm.trans hfound)
  obtain ⟨hname, hrefs⟩ := settled_keeps (stored.creditsOf department).zipIdx
    ((incoming.creditsOf department).zipIdx (stored.creditsOf department).length)
    (.ofPerson older role.contribution, i)
  rw [hsame] at hname hrefs
  exact ⟨kept, older, newer, hkept, holder, hnewer, hname, hrefs⟩

end Crew

end FilmCatalog
