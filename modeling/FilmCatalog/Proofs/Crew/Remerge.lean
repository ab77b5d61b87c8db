/-
  FilmCatalog.Proofs.Crew.Remerge
  ───────────────────────────────
  **A CREW MERGED WITH THE SAME CREW ONCE MORE.**

  The second merge adds no role and renames nobody: every incoming role finds a
  partner in what the first merge made.  It may find another one than before,
  though.  Ranks follow contributions and references, and these are what a
  merge changes; so where one person has several roles, an incoming role can go
  to one of them first and to the next one later.

      stored         Weaver, Weaver as an extra
      with Ripley    Weaver as Ripley, Weaver as an extra
      once more      Weaver as Ripley, Weaver as Ripley

  The second merge is no change exactly if each role already has all that its
  partner says (`mergedCrew_again_iff`), and so it is wherever the incoming
  people are new to their department or have one role on either side
  (`hasAll_mergedCrew`).
-/
import FilmCatalog.Proofs.Crew.Pairing
import FilmCatalog.Proofs.Merging

namespace FilmCatalog

namespace Credit

/-! ## §1. Credits with nothing to add. -/

/-- All that the newer credit says, the older one says already. -/
def HasAll (older newer : Credit) : Prop :=
  (newer.contribution = none ∨ newer.contribution = older.contribution) ∧
    ∀ key, (newer.refs.get? key).isSome → (older.refs.get? key).isSome

theorem unite_eq_self_iff {older newer : Credit} :
    unite older newer = older ↔ older.HasAll newer := by
  have hcontribution : newer.contribution.or older.contribution = older.contribution ↔
      newer.contribution = none ∨ newer.contribution = older.contribution := by
    cases newer.contribution <;> simp
  have hkey : ∀ key, (older.refs.get? key).or (newer.refs.get? key) = older.refs.get? key ↔
      ((newer.refs.get? key).isSome → (older.refs.get? key).isSome) := by
    intro key
    cases older.refs.get? key <;> cases newer.refs.get? key <;> simp
  -- The union of two maps is the older one if it is so under every key.
  have hrefs : newer.refs.override older.refs = older.refs ↔
      ∀ key, (newer.refs.get? key).isSome → (older.refs.get? key).isSome := by
    rw [← forall_congr' hkey]
    constructor
    · intro h key
      rw [← SortedMap.get?_override, h]
    · intro h
      exact SortedMap.ext_get? fun key => (SortedMap.get?_override _ _ _).trans (h key)
  unfold HasAll
  rw [← hcontribution, ← hrefs]
  constructor
  · intro h
    exact ⟨congrArg Credit.contribution h, congrArg Credit.refs h⟩
  · rintro ⟨hcontribution, hrefs⟩
    show Credit.mk older.name _ _ = older
    rw [hrefs, hcontribution]

theorem hasAll_unite (older newer : Credit) : (unite older newer).HasAll newer := by
  refine ⟨?_, fun key hkey => ?_⟩
  · show newer.contribution = none ∨ newer.contribution = newer.contribution.or older.contribution
    cases newer.contribution <;> simp
  · rw [get?_refs_unite, Option.isSome_or, hkey, Bool.or_true]

theorem hasAll_self (credit : Credit) : credit.HasAll credit := ⟨.inr rfl, fun _ h => h⟩

/-- **Somewhere in the merged list everything stands** that an incoming credit
says, under its name. -/
theorem exists_hasAll (stored : List Credit) {incoming : List Credit} {newer : Credit} (hnewer : newer ∈ incoming) :
    ∃ credit ∈ rule.mergeLists stored incoming, credit.name = newer.name ∧ credit.HasAll newer := by
  rw [← List.zipIdx_map_fst stored.length incoming] at hnewer
  obtain ⟨entry, hentry, rfl⟩ := List.mem_map.1 hnewer
  rw [mergeLists_eq]
  rcases grouping.paired_or_unpaired hentry with ⟨older, _, hpaired, hunited⟩ | hleft
  · have hname : older.1.name = entry.1.name := grouping.key_of_paired hpaired
    exact ⟨unite older.1 entry.1, List.mem_append_left _ hunited, hname, hasAll_unite _ _⟩
  · exact ⟨entry.1, List.mem_append_right _ hleft, rfl, hasAll_self _⟩

/-- Credits of a name that stands once are one credit. -/
theorem eq_of_count_name_le_one {credits : List Credit} {a b : Credit} (ha : a ∈ credits)
    (hb : b ∈ credits) (hname : a.name = b.name)
    (hcount : (credits.map Credit.name).count b.name ≤ 1) : a = b := by
  induction credits with
  | nil => cases ha
  | cons head rest ih =>
    rw [List.map_cons, List.count_cons] at hcount
    -- If the head has the name, nobody behind it has.
    have habsent : head.name = b.name → ∀ credit ∈ rest, credit.name ≠ b.name := by
      intro hhead credit hcredit hsame
      have hpositive : 0 < (rest.map Credit.name).count b.name :=
        List.count_pos_iff.2 (hsame ▸ List.mem_map_of_mem hcredit)
      rw [if_pos (beq_iff_eq.2 hhead)] at hcount
      omega
    rcases List.mem_cons.1 ha with hhead | hrest
    · rcases List.mem_cons.1 hb with hsame | hother
      · exact hhead.trans hsame.symm
      · exact absurd rfl (habsent (hhead ▸ hname) b hother)
    · rcases List.mem_cons.1 hb with hsame | hother
      · exact absurd hname (habsent (hsame ▸ rfl) a hrest)
      · exact ih hrest hother (by omega)

/-- People with one role at most on either side have one in the merged list. -/
theorem hasAll_of_single {stored incoming : List Credit} {older newer : Credit}
    (holder : older ∈ rule.mergeLists stored incoming) (hnewer : newer ∈ incoming)
    (hname : older.name = newer.name) (hnamed : newer.name ≠ "")
    (hstored : (stored.map Credit.name).count newer.name ≤ 1)
    (hincoming : (incoming.map Credit.name).count newer.name ≤ 1) : older.HasAll newer := by
  obtain ⟨credit, hcredit, hsame, hall⟩ := exists_hasAll stored hnewer
  have hcount := count_name_mergeLists stored incoming newer.name
  rw [if_pos hnamed] at hcount
  have hlisted : 0 < (incoming.map Credit.name).count newer.name :=
    List.count_pos_iff.2 (List.mem_map_of_mem hnewer)
  have hone : ((rule.mergeLists stored incoming).map Credit.name).count credit.name ≤ 1 := by
    rw [hsame]
    omega
  rwa [eq_of_count_name_le_one holder hcredit (hname.trans hsame.symm) hone]

instance : Std.LawfulEqCmp compareRef where
  eq_of_compare := by
    intro a b h
    obtain ⟨hkey, hvalue⟩ := Ordering.then_eq_eq.1 h
    exact Prod.ext (Std.LawfulEqCmp.eq_of_compare hkey) (Std.LawfulEqCmp.eq_of_compare hvalue)

/-- The order of credits tells all of them apart. -/
theorem eq_of_le {a b : Credit} (hab : rule.le a b = true) (hba : rule.le b a = true) : a = b := by
  have hsame : compare a b = .eq := Std.OrientedCmp.isLE_antisymm hab hba
  rw [compare_eq] at hsame
  obtain ⟨hname, hwork⟩ := Ordering.then_eq_eq.1 hsame
  obtain ⟨hcontribution, hrefs⟩ := Ordering.then_eq_eq.1 hwork
  have hentries : a.refs = b.refs := SortedMap.ext (Std.LawfulEqCmp.eq_of_compare hrefs)
  show Credit.mk a.name a.refs a.contribution = b
  rw [Std.LawfulEqCmp.eq_of_compare hname, hentries, Std.LawfulEqCmp.eq_of_compare hcontribution]

/-- People who are new to a list meet themselves in the merged one. -/
theorem hasAll_of_new {stored incoming : List Credit} {older newer : Credit × Nat} {offset : Nat}
    (holder : older ∈ (rule.mergeLists stored incoming).zipIdx)
    (hnewer : newer ∈ incoming.zipIdx offset)
    (hpaired : grouping.paired (rule.mergeLists stored incoming).zipIdx (incoming.zipIdx offset)
      older newer = true)
    (hnew : newer.1.name ∉ stored.map Credit.name) : older.1.HasAll newer.1 := by
  have hsame : older.1 = newer.1 := by
    refine grouping.eq_of_paired (fun _ _ => eq_of_le) holder hnewer hpaired (List.Perm.of_eq ?_)
    exact grouping.filter_mergeLists hnew
  rw [hsame]
  exact hasAll_self _

end Credit

namespace Crew

/-! ## §2. The second merge. -/

/-- Every pair of the two crews has nothing to add. -/
def HasAll (stored incoming : Crew) : Prop :=
  ∀ department, ∀ older ∈ (stored.creditsOf department).zipIdx,
    ∀ newer ∈ (incoming.creditsOf department).zipIdx (stored.creditsOf department).length,
      Credit.grouping.paired (stored.creditsOf department).zipIdx
          ((incoming.creditsOf department).zipIdx (stored.creditsOf department).length) older newer
        = true → older.1.HasAll newer.1

theorem normal_mergedCrew {stored incoming : Crew} (hstored : stored.Normal)
    (hincoming : incoming.Normal) : (mergedCrew stored incoming).Normal :=
  normal_ofCredits (fit_mergedCredits hstored hincoming .directors)
    (fit_mergedCredits hstored hincoming .writers) (fit_mergedCredits hstored hincoming .cast)

theorem name_ne_empty {c : Crew} (h : c.Normal) {department : Department} {credit : Credit}
    (hcredit : credit ∈ c.creditsOf department) : credit.name ≠ "" :=
  fun hempty => (fit_creditsOf h department credit hcredit).2 (.inl hempty)

/-- A crew in normal form is made of its own credits. -/
theorem ofCredits_creditsOf {c : Crew} (h : c.Normal) :
    ofCredits (c.creditsOf .directors) (c.creditsOf .writers) (c.creditsOf .cast) = c := by
  rw [ofCredits_eq, map_creditAppearance h, map_creditAppearance h, map_creditAppearance h]
  exact ofAppearances_of_normal h

/-- **The second merge unites each role with its partner, and adds none.** -/
theorem mergedCredits_again (stored : Crew) {incoming : Crew} (hincoming : incoming.Normal)
    (department : Department) :
    mergedCredits (mergedCrew stored incoming) incoming department
      = Credit.grouping.united ((mergedCrew stored incoming).creditsOf department)
          (incoming.creditsOf department) := by
  have hnone : Credit.grouping.unpaired ((mergedCrew stored incoming).creditsOf department)
      (incoming.creditsOf department) = [] := by
    rw [creditsOf_mergedCrew]
    exact Credit.grouping.unpaired_mergeLists _
      fun credit hcredit => decide_eq_true (name_ne_empty hincoming hcredit)
  unfold mergedCredits
  rw [Credit.mergeLists_eq, hnone, List.append_nil]

/-- **When the second merge is no change.** -/
theorem mergedCrew_again_iff {stored incoming : Crew} (hstored : stored.Normal)
    (hincoming : incoming.Normal) :
    mergedCrew (mergedCrew stored incoming) incoming = mergedCrew stored incoming ↔
      (mergedCrew stored incoming).HasAll incoming := by
  have hnormal := normal_mergedCrew hstored hincoming
  -- A crew in normal form is determined by its credits, so they are what to compare.
  have hcredits : mergedCrew (mergedCrew stored incoming) incoming = mergedCrew stored incoming ↔
      ∀ department, mergedCredits (mergedCrew stored incoming) incoming department
        = (mergedCrew stored incoming).creditsOf department := by
    constructor
    · intro h department
      rw [← creditsOf_mergedCrew (mergedCrew stored incoming), h]
    · intro h
      rw [mergedCrew, h, h, h, ofCredits_creditsOf hnormal]
  rw [hcredits]
  refine forall_congr' fun department => ?_
  rw [mergedCredits_again stored hincoming, Credit.grouping.united_eq_self_iff]
  exact forall₂_congr fun older _ => forall₂_congr fun newer _ =>
    imp_congr_right fun _ => Credit.unite_eq_self_iff

/-- Whoever comes in is new to the department, or has one role in it on either
side. -/
def Unambiguous (stored incoming : Crew) : Prop :=
  ∀ department, ∀ credit ∈ incoming.creditsOf department,
    credit.name ∉ (stored.creditsOf department).map Credit.name ∨
      ((stored.creditsOf department).map Credit.name).count credit.name ≤ 1 ∧
        ((incoming.creditsOf department).map Credit.name).count credit.name ≤ 1

theorem hasAll_mergedCrew {stored incoming : Crew} (hincoming : incoming.Normal)
    (hclear : Unambiguous stored incoming) : (mergedCrew stored incoming).HasAll incoming := by
  intro department older holder newer hnewer hpaired
  have hnew := List.fst_mem_of_mem_zipIdx hnewer
  rw [creditsOf_mergedCrew] at holder hnewer hpaired
  rcases hclear department newer.1 hnew with habsent | ⟨hstored, hfresh⟩
  · exact Credit.hasAll_of_new holder hnewer hpaired habsent
  · exact Credit.hasAll_of_single (List.fst_mem_of_mem_zipIdx holder) hnew
      (Credit.grouping.key_of_paired hpaired) (name_ne_empty hincoming hnew) hstored hfresh

/-! ## §3. Crews of documents. -/

/-- The crew was loaded from a document. -/
def IsLoaded (c : Crew) : Prop :=
  ∃ held node outcome, (load held node).result = .ok outcome ∧ (load held node).value = c

theorem IsLoaded.normal {c : Crew} (h : c.IsLoaded) : c.Normal := by
  obtain ⟨held, node, outcome, hresult, rfl⟩ := h
  exact ensures_load held node outcome hresult

/-- **Merging once more.**  Crews of documents can be merged, and what comes of
it can be merged with the incoming crew again.  That adds no role and renames
nobody.  Its outcome tells whether anything changed, and nothing does exactly
if each role has all that its partner says; so it is if it is clear to whom
each incoming role belongs. -/
theorem merge_loaded_again {stored incoming : Crew} (hstored : stored.IsLoaded)
    (hincoming : incoming.IsLoaded) :
    ∃ merged again, merge stored incoming = .ok merged ∧ merge merged.value incoming = .ok again ∧
      (∀ department, (again.value.creditsOf department).map Credit.name
        = (merged.value.creditsOf department).map Credit.name) ∧
      (again.outcome = .unchanged ↔ again.value = merged.value) ∧
      (again.value = merged.value ↔ merged.value.HasAll incoming) ∧
      (Unambiguous stored incoming → again = .keep merged.value) := by
  have hattached := hincoming.normal.attached
  have hnormal := normal_mergedCrew hstored.normal hincoming.normal
  have hiff := mergedCrew_again_iff hstored.normal hincoming.normal
  refine ⟨_, _, merge_eq_mergedCrew hstored.normal.attached hattached,
    merge_eq_mergedCrew hnormal.attached hattached, fun department => ?_,
    (Merged.exact_replace _ _).unchanged_iff, hiff, fun hclear => ?_⟩
  · show ((mergedCrew (mergedCrew stored incoming) incoming).creditsOf department).map _ = _
    rw [creditsOf_mergedCrew, mergedCredits_again stored hincoming.normal]
    exact Credit.grouping.map_key_united _ _
  · have hsame := hiff.2 (hasAll_mergedCrew hincoming.normal hclear)
    show Merged.replace (mergedCrew stored incoming)
      (mergedCrew (mergedCrew stored incoming) incoming) = _
    rw [hsame, Merged.replace_self]
    rfl

/-- A writer. -/
def writerDocument : Json :=
  .object [("names", .array [.string "Ronald Shusett"]), ("writers", .array [.ofInt 0])]

/-- Another writer, of two works, and what the first one wrote. -/
def furtherWriterDocument : Json :=
  .object [
    ("names", .array [.string "Ann Lee",
      .array [.string "Ronald Shusett", .string "imdb:nm1"]]),
    ("writers", .array [
      .array [.ofInt 0, .string "screenplay"], .array [.ofInt 0, .string "novel"],
      .array [.ofInt 1, .string "screenplay"]])]

theorem merge_again_writers :
    (load empty writerDocument).value.IsLoaded ∧
    (load empty furtherWriterDocument).value.IsLoaded ∧
    ∃ merged again,
      merge (load empty writerDocument).value (load empty furtherWriterDocument).value
        = .ok merged ∧
      merge merged.value (load empty furtherWriterDocument).value = .ok again ∧
      again = .keep merged.value := by
  have hstored : (load empty writerDocument).value.IsLoaded :=
    ⟨empty, writerDocument, .unchanged, by decide +kernel, rfl⟩
  have hincoming : (load empty furtherWriterDocument).value.IsLoaded :=
    ⟨empty, furtherWriterDocument, .unchanged, by decide +kernel, rfl⟩
  obtain ⟨merged, again, hmerged, hagain, _, _, _, hsame⟩ :=
    merge_loaded_again hstored hincoming
  refine ⟨hstored, hincoming, merged, again, hmerged, hagain, hsame ?_⟩
  intro department
  cases department <;> decide +kernel

/-- Two roles of one person, the first without a contribution. -/
def twoRolesDocument : Json :=
  .object [
    ("cast", .array [.ofInt 0, .array [.ofInt 0, .string "Extra"]]),
    ("names", .array [.string "Sigourney Weaver"])]

/-- A further role of that person. -/
def furtherRoleDocument : Json :=
  .object [
    ("cast", .array [.array [.ofInt 0, .string "Ripley"]]),
    ("names", .array [.string "Sigourney Weaver"])]

/-- Merged twice, the further role takes the place of both others. -/
theorem merge_again_takes_second_role :
    (load empty twoRolesDocument).value.IsLoaded ∧
    (load empty furtherRoleDocument).value.IsLoaded ∧
    ∃ merged again,
      merge (load empty twoRolesDocument).value (load empty furtherRoleDocument).value
        = .ok merged ∧
      merge merged.value (load empty furtherRoleDocument).value = .ok again ∧
      merged.value.cast = [⟨0, some "Ripley"⟩, ⟨0, some "Extra"⟩] ∧
      again.value.cast = [⟨0, some "Ripley"⟩, ⟨0, some "Ripley"⟩] ∧
      again.outcome = .updated := by
  have hstored : (load empty twoRolesDocument).value.IsLoaded :=
    ⟨empty, twoRolesDocument, .unchanged, by decide +kernel, rfl⟩
  have hincoming : (load empty furtherRoleDocument).value.IsLoaded :=
    ⟨empty, furtherRoleDocument, .unchanged, by decide +kernel, rfl⟩
  have hmerged : mergedCrew (load empty twoRolesDocument).value
        (load empty furtherRoleDocument).value
      = ⟨[], [], [⟨0, some "Ripley"⟩, ⟨0, some "Extra"⟩],
          [.named "Sigourney Weaver"]⟩ := by
    simp only [mergedCrew, mergedCredits, Credit.mergeLists_eq]
    decide +kernel
  -- Now the extra comes ahead of Ripley.
  have hagain : mergedCrew
        ⟨[], [], [⟨0, some "Ripley"⟩, ⟨0, some "Extra"⟩],
          [.named "Sigourney Weaver"]⟩ (load empty furtherRoleDocument).value
      = ⟨[], [], [⟨0, some "Ripley"⟩, ⟨0, some "Ripley"⟩],
          [.named "Sigourney Weaver"]⟩ := by
    simp only [mergedCrew, mergedCredits, Credit.mergeLists_eq]
    decide +kernel
  have hattached := hincoming.normal.attached
  refine ⟨hstored, hincoming, _, _, merge_eq_mergedCrew hstored.normal.attached hattached,
    merge_eq_mergedCrew (attached_ofCredits _ _ _) hattached, ?_, ?_, ?_⟩
  · exact congrArg Crew.cast hmerged
  · show (mergedCrew (mergedCrew _ _) _).cast = _
    rw [hmerged, hagain]
  · show (Merged.replace (mergedCrew _ _) (mergedCrew (mergedCrew _ _) _)).outcome = _
    rw [hmerged, hagain]
    decide +kernel

end Crew

end FilmCatalog
