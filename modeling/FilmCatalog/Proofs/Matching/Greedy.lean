/-
  FilmCatalog.Proofs.Matching.Greedy
  ──────────────────────────────────
  **THE GREEDY MATCHING, TOLD WITHOUT A LOOP.**

  A record is known by its identifier, with a blank for each dash and each
  underscore, and by its titles in lower case (`NamedBy`); a video by its
  identifier alone.  Which pairs may be accepted does not depend on any order
  (`Eligible`): the record is known, and the best ratio of its names and the
  name of the video is four fifths or more.  A list of such pairs is *greedy*
  (`Greedy`) if

    • it descends, by ratio, video and record,
    • no video and no record stands in it twice,
    • every other pair shares its video or its record with a greater one.

  The accepted candidates are greedy, and no other list is
  (`Greedy.unique`): the head has to be the greatest pair, and the rest is
  greedy among the pairs that do not clash with it.  So the order in which
  records and videos are listed is of no importance.
-/
import Mathlib.Data.List.Forall2
import Mathlib.Data.List.Pairwise
import FilmCatalog.Matching.Orphans
import FilmCatalog.Proofs.SortedMap

namespace FilmCatalog

/-! ## §1. The order of candidates. -/

namespace Binary64

theorem eq_of_bits {x y : Binary64} (h : x.bits = y.bits) : x = y := by
  cases x
  cases y
  cases h
  rfl

instance : Std.TransOrd Binary64 := inferInstanceAs (Std.TransCmp (compareOn Binary64.bits))

instance : Std.LawfulEqOrd Binary64 where
  eq_of_compare := fun h => eq_of_bits (Nat.compare_eq_eq.1 h)

theorem le_refl (x : Binary64) : x ≤ x := Nat.le_refl x.bits

theorem le_trans {x y z : Binary64} (hxy : x ≤ y) (hyz : y ≤ z) : x ≤ z := Nat.le_trans hxy hyz

theorem le_of_not_le {x y : Binary64} (h : ¬ x ≤ y) : y ≤ x := Nat.le_of_not_le h

theorem le_antisymm {x y : Binary64} (hxy : x ≤ y) (hyx : y ≤ x) : x = y :=
  eq_of_bits (Nat.le_antisymm hxy hyx)

theorem zero_le (x : Binary64) : zero ≤ x := Nat.zero_le x.bits

end Binary64

namespace Matching

namespace Candidate

instance : Std.TransOrd Candidate :=
  inferInstanceAs (Std.TransCmp (compareLex (compareOn Candidate.ratio)
    (compareLex (compareOn Candidate.video) (compareOn Candidate.info))))

instance : Std.LawfulEqOrd Candidate where
  eq_of_compare := by
    intro a b h
    obtain ⟨hratio, hids⟩ := Ordering.then_eq_eq.1 h
    obtain ⟨hvideo, hinfo⟩ := Ordering.then_eq_eq.1 hids
    show Candidate.mk a.ratio a.video a.info = b
    rw [Std.LawfulEqCmp.eq_of_compare hratio, Std.LawfulEqCmp.eq_of_compare hvideo,
      Std.LawfulEqCmp.eq_of_compare hinfo]

/-- The candidate is strictly greater than another one. -/
def Above (a b : Candidate) : Prop := compare b a = .lt

/-- Two candidates that cannot both be accepted. -/
def Clash (a b : Candidate) : Prop := a.video = b.video ∨ a.info = b.info

theorem clash_self (c : Candidate) : c.Clash c := .inl rfl

/-- Of two different candidates the one that is not smaller is above the other. -/
theorem above_of_le {a b : Candidate} (hle : (compare b a).isLE = true) (hne : a ≠ b) : a.Above b := by
  unfold Above
  cases hcompare : compare b a with
  | lt => rfl
  | eq => exact absurd (Std.LawfulEqCmp.eq_of_compare hcompare).symm hne
  | gt =>
    rw [hcompare] at hle
    cases hle

theorem Above.asymm {a b : Candidate} (hab : a.Above b) : ¬ b.Above a := by
  intro hba
  have hswap : compare b a = (compare a b).swap := Std.OrientedCmp.eq_swap
  rw [hab, hba] at hswap
  cases hswap

theorem Above.trans {a b c : Candidate} (hab : a.Above b) (hbc : b.Above c) : a.Above c :=
  Std.TransCmp.lt_trans hbc hab

end Candidate

/-! ## §2. Names. -/

/-- The name is the identifier with a blank for each dash and each underscore. -/
def Spells (id name : String) : Prop :=
  List.Forall₂ (fun c d => if c = '-' ∨ c = '_' then d = ' ' else d = c) id.toList name.toList

/-- **What a record is known by**: its identifier with blanks for the marks, and
each of its titles in lower case. -/
def NamedBy (info : String) (record : Record) (name : String) : Prop :=
  Spells info name ∨
    ∃ tag title, SortedMap.get? record.title tag = some title ∧ name = Text.lower title.text

/-- A text whose characters are each told by one of another text is its image. -/
theorem forall₂_eq_map_iff {f : Char → Char} {chars others : List Char} :
    List.Forall₂ (fun c d => d = f c) chars others ↔ others = chars.map f := by
  rw [eq_comm, ← List.forall₂_eq_eq_eq, List.forall₂_map_left_iff]
  simp only [eq_comm]

/-- A name spells an identifier if it is the identifier with blanks for marks. -/
theorem spells_iff {id name : String} : Spells id name ↔ name = spaced id := by
  have hchar : ∀ c d : Char, (if c = '-' ∨ c = '_' then d = ' ' else d = c) ↔
      d = if c = '-' || c = '_' then ' ' else c := by
    intro c d
    by_cases hmark : c = '-' ∨ c = '_'
    · simp [hmark]
    · simp [hmark]
  unfold Spells
  simp only [hchar]
  rw [forall₂_eq_map_iff, ← String.toList_inj, spaced, String.toList_map]

/-- The keys of a record are the names that it is known by. -/
theorem mem_keysOf_iff {info : String} {record : Record} {name : String} :
    name ∈ keysOf info record ↔ NamedBy info record name := by
  unfold keysOf NamedBy
  rw [List.mem_cons, spells_iff]
  refine or_congr_right ⟨fun h => ?_, fun h => ?_⟩
  · obtain ⟨title, htitle, rfl⟩ := List.mem_map.1 h
    obtain ⟨tag, htag⟩ := SortedMap.mem_values_iff.1 htitle
    exact ⟨tag, title, htag, rfl⟩
  · obtain ⟨tag, title, htag, rfl⟩ := h
    exact List.mem_map.2 ⟨title, SortedMap.mem_values_iff.2 ⟨tag, htag⟩, rfl⟩

/-! ## §3. The best ratio. -/

/-- The ratio is one of a name of the record and the name of the video. -/
def IsRatio (info : String) (record : Record) (video : String) (r : Binary64) : Prop :=
  ∃ name other, NamedBy info record name ∧ Spells video other ∧ r = ratio name other

/-- The ratio is the greatest one of a record and a video. -/
def IsBest (info : String) (record : Record) (video : String) (best : Binary64) : Prop :=
  IsRatio info record video best ∧ ∀ r, IsRatio info record video r → r ≤ best

/-- The ratios of a record and a video are those of its keys. -/
theorem isRatio_iff {info : String} {record : Record} {video : String} {r : Binary64} :
    IsRatio info record video r ↔ ∃ key ∈ keysOf info record, r = ratio key (spaced video) := by
  constructor
  · rintro ⟨name, other, hname, hother, rfl⟩
    exact ⟨name, mem_keysOf_iff.2 hname, spells_iff.1 hother ▸ rfl⟩
  · rintro ⟨key, hkey, rfl⟩
    exact ⟨key, spaced video, mem_keysOf_iff.1 hkey, spells_iff.2 rfl, rfl⟩

/-- There is one best ratio. -/
theorem IsBest.unique {info : String} {record : Record} {video : String} {a b : Binary64}
    (ha : IsBest info record video a) (hb : IsBest info record video b) : a = b :=
  Binary64.le_antisymm (hb.2 a ha.1) (ha.2 b hb.1)

/-- A fold that keeps the greater one ends at the start or at a greatest
element. -/
theorem foldl_best (ratios : List Binary64) (start : Binary64) :
    start ≤ ratios.foldl (fun best r => if best ≤ r then r else best) start ∧
      (∀ r ∈ ratios, r ≤ ratios.foldl (fun best r => if best ≤ r then r else best) start) ∧
      (ratios.foldl (fun best r => if best ≤ r then r else best) start = start ∨
        ratios.foldl (fun best r => if best ≤ r then r else best) start ∈ ratios) := by
  induction ratios generalizing start with
  | nil => exact ⟨Binary64.le_refl start, by simp, .inl rfl⟩
  | cons r rest ih =>
    rw [List.foldl_cons]
    obtain ⟨hstart, hrest, hfound⟩ := ih (if start ≤ r then r else start)
    by_cases hle : start ≤ r
    · rw [if_pos hle] at hstart hrest hfound ⊢
      refine ⟨Binary64.le_trans hle hstart, List.forall_mem_cons.2 ⟨hstart, hrest⟩, .inr ?_⟩
      rcases hfound with hfound | hfound
      · rw [hfound]
        exact List.mem_cons_self
      · exact List.mem_cons_of_mem _ hfound
    · rw [if_neg hle] at hstart hrest hfound ⊢
      have hr := Binary64.le_trans (Binary64.le_of_not_le hle) hstart
      exact ⟨hstart, List.forall_mem_cons.2 ⟨hr, hrest⟩, hfound.imp_right (List.mem_cons_of_mem _)⟩

/-- **The score is the best ratio.** -/
theorem isBest_score (info : String) (record : Record) (video : String) :
    IsBest info record video (score (keysOf info record) video) := by
  obtain ⟨_, hgreatest, hfound⟩ :=
    foldl_best ((keysOf info record).map fun key => ratio key (spaced video)) .zero
  have hall : ∀ key ∈ keysOf info record,
      ratio key (spaced video) ≤ score (keysOf info record) video :=
    fun key hkey => hgreatest _ (List.mem_map_of_mem hkey)
  refine ⟨isRatio_iff.2 ?_, fun r hr => ?_⟩
  · rcases hfound with hzero | hmem
    · -- No ratio is above nought, so that of the identifier is nought.
      have hkey : spaced info ∈ keysOf info record := List.mem_cons_self
      have hscore : score (keysOf info record) video = .zero := hzero
      have hleast := Binary64.le_antisymm (Binary64.zero_le _) (hscore ▸ hall _ hkey)
      exact ⟨spaced info, hkey, hscore.trans hleast⟩
    · obtain ⟨key, hkey, hratio⟩ := List.mem_map.1 hmem
      exact ⟨key, hkey, hratio.symm⟩
  · obtain ⟨key, hkey, rfl⟩ := isRatio_iff.1 hr
    exact hall key hkey

/-! ## §4. Which pairs may be accepted. -/

/-- **A pair that may be accepted**: both sides are listed, the record is known,
and the ratio is the best one and four fifths or more. -/
structure Eligible (known : SortedMap Record) (infos videos : List String) (c : Candidate) :
    Prop where
  info : c.info ∈ infos
  video : c.video ∈ videos
  best : ∃ record, known.get? c.info = some record ∧ IsBest c.info record c.video c.ratio
  reaches : .roundQuotient 4 5 ≤ c.ratio

/-- The candidates of a record are the videos whose best ratio reaches four
fifths. -/
theorem mem_candidatesFor {info : String} {record : Record} {videos : List String} {c : Candidate} :
    c ∈ candidatesFor info record videos ↔
      c.info = info ∧ c.video ∈ videos ∧ IsBest info record c.video c.ratio ∧
        .roundQuotient 4 5 ≤ c.ratio := by
  have hbest := isBest_score info record
  unfold candidatesFor
  rw [List.mem_filterMap]
  constructor
  · rintro ⟨video, hvideo, hc⟩
    simp only at hc
    split at hc
    · rename_i hreaches
      cases hc
      exact ⟨rfl, hvideo, hbest video, hreaches⟩
    · cases hc
  · rintro ⟨rfl, hvideo, hratio, hreaches⟩
    -- There is one best ratio, so the score is the one that the candidate has.
    have hscore := (hbest c.video).unique hratio
    refine ⟨c.video, hvideo, ?_⟩
    simp only [hscore]
    exact if_pos hreaches

/-- **The candidates are the eligible pairs.** -/
theorem mem_candidates {known : SortedMap Record} {infos videos : List String} {c : Candidate} :
    c ∈ candidates known infos videos ↔ Eligible known infos videos c := by
  unfold candidates unsorted
  rw [List.mem_mergeSort, List.mem_flatMap]
  constructor
  · rintro ⟨info, hinfo, hc⟩
    split at hc
    · rename_i record hrecord
      obtain ⟨rfl, hvideo, hbest, hreaches⟩ := mem_candidatesFor.1 hc
      exact ⟨hinfo, hvideo, ⟨record, hrecord, hbest⟩, hreaches⟩
    · cases hc
  · rintro ⟨hinfo, hvideo, ⟨record, hrecord, hbest⟩, hreaches⟩
    refine ⟨c.info, hinfo, ?_⟩
    rw [hrecord]
    exact mem_candidatesFor.2 ⟨rfl, hvideo, hbest, hreaches⟩

/-- Candidates stand in descending order. -/
theorem pairwise_candidates (known : SortedMap Record) (infos videos : List String) :
    (candidates known infos videos).Pairwise fun a b => (compare b a).isLE = true := by
  unfold candidates
  refine List.pairwise_mergeSort ?_ ?_ _
  · intro a b c hab hbc
    exact Std.TransCmp.isLE_trans hbc hab
  · intro a b
    have hswap : compare b a = (compare a b).swap := Std.OrientedCmp.eq_swap
    rw [hswap]
    cases compare a b <;> rfl

/-! ## §5. The greedy choice. -/

/-- **A greedy list** of the pairs that may be accepted. -/
structure Greedy (eligible : Candidate → Prop) (accepted : List Candidate) : Prop where
  descending : accepted.Pairwise Candidate.Above
  exclusive : accepted.Pairwise fun a b => a.video ≠ b.video ∧ a.info ≠ b.info
  sound : ∀ c ∈ accepted, eligible c
  maximal : ∀ c, eligible c → c ∈ accepted ∨ ∃ a ∈ accepted, a.Above c ∧ a.Clash c

/-- Candidates are accepted in their order. -/
theorem accept_sublist (usedInfos usedVideos : List String) (list : List Candidate) :
    (accept usedInfos usedVideos list).Sublist list := by
  fun_induction accept usedInfos usedVideos list with
  | case1 => exact .slnil
  | case2 usedInfos usedVideos c rest hused ih => exact ih.cons c
  | case3 usedInfos usedVideos c rest hused ih => exact ih.cons_cons c

/-- Nothing that has been used is used again. -/
theorem unused_of_mem_accept {usedInfos usedVideos : List String} {list : List Candidate}
    {c : Candidate} (h : c ∈ accept usedInfos usedVideos list) :
    c.info ∉ usedInfos ∧ c.video ∉ usedVideos := by
  fun_induction accept usedInfos usedVideos list with
  | case1 => cases h
  | case2 usedInfos usedVideos head rest hused ih => exact ih h
  | case3 usedInfos usedVideos head rest hused ih =>
    rcases List.mem_cons.1 h with rfl | hrest
    · simpa using hused
    · obtain ⟨hinfo, hvideo⟩ := ih hrest
      exact ⟨fun hmem => hinfo (List.mem_cons_of_mem _ hmem),
        fun hmem => hvideo (List.mem_cons_of_mem _ hmem)⟩

/-- No two accepted candidates share a video or a record. -/
theorem exclusive_accept (usedInfos usedVideos : List String) (list : List Candidate) :
    (accept usedInfos usedVideos list).Pairwise
      fun a b => a.video ≠ b.video ∧ a.info ≠ b.info := by
  fun_induction accept usedInfos usedVideos list with
  | case1 => exact .nil
  | case2 usedInfos usedVideos head rest hused ih => exact ih
  | case3 usedInfos usedVideos head rest hused ih =>
    refine List.pairwise_cons.2 ⟨fun c hc => ?_, ih⟩
    obtain ⟨hinfo, hvideo⟩ := unused_of_mem_accept hc
    exact ⟨fun heq => hvideo (heq ▸ List.mem_cons_self),
      fun heq => hinfo (heq ▸ List.mem_cons_self)⟩

/-- A candidate is passed over only if it clashes with what has been used, or
with one that is accepted before it. -/
theorem accept_or_clash (usedInfos usedVideos : List String) {list : List Candidate}
    (hsorted : list.Pairwise fun a b => (compare b a).isLE = true) {c : Candidate} (hc : c ∈ list) :
    c ∈ accept usedInfos usedVideos list ∨ (c.info ∈ usedInfos ∨ c.video ∈ usedVideos) ∨
      ∃ a ∈ accept usedInfos usedVideos list, (compare c a).isLE = true ∧ a.Clash c := by
  fun_induction accept usedInfos usedVideos list with
  | case1 => cases hc
  | case2 usedInfos usedVideos head rest hused ih =>
    rcases List.mem_cons.1 hc with rfl | hrest
    · exact .inr (.inl (by simpa using hused))
    · exact ih (List.pairwise_cons.1 hsorted).2 hrest
  | case3 usedInfos usedVideos head rest hused ih =>
    obtain ⟨hhead, htail⟩ := List.pairwise_cons.1 hsorted
    rcases List.mem_cons.1 hc with rfl | hrest
    · exact .inl List.mem_cons_self
    · rcases ih htail hrest with haccepted | hbefore | ⟨a, ha, hle, hclash⟩
      · exact .inl (List.mem_cons_of_mem _ haccepted)
      · -- What the head used is a clash with the head.
        rcases hbefore with hinfo | hvideo
        · rcases List.mem_cons.1 hinfo with heq | hinfo
          · exact .inr (.inr ⟨head, List.mem_cons_self, hhead c hrest, .inr heq.symm⟩)
          · exact .inr (.inl (.inl hinfo))
        · rcases List.mem_cons.1 hvideo with heq | hvideo
          · exact .inr (.inr ⟨head, List.mem_cons_self, hhead c hrest, .inl heq.symm⟩)
          · exact .inr (.inl (.inr hvideo))
      · exact .inr (.inr ⟨a, List.mem_cons_of_mem _ ha, hle, hclash⟩)

/-- **The loop chooses greedily** from a list in descending order. -/
theorem greedy_accept {list : List Candidate}
    (hsorted : list.Pairwise fun a b => (compare b a).isLE = true) :
    Greedy (· ∈ list) (accept [] [] list) where
  descending := by
    have hexclusive := exclusive_accept [] [] list
    have hkept := hsorted.sublist (accept_sublist [] [] list)
    -- In a sorted list neighbours may be equal, but equal candidates clash.
    refine (hkept.and hexclusive).imp ?_
    rintro a b ⟨hle, hvideo, _⟩
    exact Candidate.above_of_le hle fun heq => hvideo (heq ▸ rfl)
  exclusive := exclusive_accept [] [] list
  sound := fun c hc => (accept_sublist [] [] list).subset hc
  maximal := by
    intro c hc
    by_cases haccepted : c ∈ accept [] [] list
    · exact .inl haccepted
    · rcases accept_or_clash [] [] hsorted hc with hin | (hinfo | hvideo) | ⟨a, ha, hle, hclash⟩
      · exact .inl hin
      · cases hinfo
      · cases hvideo
      · exact .inr ⟨a, ha, Candidate.above_of_le hle fun heq => haccepted (heq ▸ ha), hclash⟩

/-! ## §6. There is one greedy list. -/

/-- The head of a greedy list is the greatest pair of all. -/
theorem Greedy.head_greatest {eligible : Candidate → Prop} {head : Candidate}
    {rest : List Candidate} (h : Greedy eligible (head :: rest)) {c : Candidate} (hc : eligible c) :
    c = head ∨ head.Above c := by
  have hhead := (List.pairwise_cons.1 h.descending).1
  rcases h.maximal c hc with hmem | ⟨a, ha, habove, _⟩
  · exact (List.mem_cons.1 hmem).imp_right (hhead c)
  · -- It stands below an accepted pair, hence below the head.
    rcases List.mem_cons.1 ha with rfl | ha
    · exact .inr habove
    · exact .inr ((hhead a ha).trans habove)

/-- Behind the head, a greedy list is greedy among the pairs that do not clash
with the head. -/
theorem Greedy.tail {eligible : Candidate → Prop} {head : Candidate} {rest : List Candidate}
    (h : Greedy eligible (head :: rest)) :
    Greedy (fun c => eligible c ∧ ¬ head.Clash c) rest where
  descending := (List.pairwise_cons.1 h.descending).2
  exclusive := (List.pairwise_cons.1 h.exclusive).2
  sound := by
    intro c hc
    obtain ⟨hvideo, hinfo⟩ := (List.pairwise_cons.1 h.exclusive).1 c hc
    exact ⟨h.sound c (List.mem_cons_of_mem _ hc), fun hclash => hclash.elim hvideo hinfo⟩
  maximal := by
    rintro c ⟨hc, hclash⟩
    rcases h.maximal c hc with hmem | ⟨a, ha, habove, haclash⟩
    · rcases List.mem_cons.1 hmem with rfl | hrest
      · exact absurd (Candidate.clash_self c) hclash
      · exact .inl hrest
    · rcases List.mem_cons.1 ha with rfl | hrest
      · exact absurd haclash hclash
      · exact .inr ⟨a, hrest, habove, haclash⟩

/-- **No two lists are greedy.** -/
theorem Greedy.unique {eligible : Candidate → Prop} {accepted others : List Candidate}
    (h : Greedy eligible accepted) (hothers : Greedy eligible others) : accepted = others := by
  induction accepted generalizing eligible others with
  | nil =>
    cases others with
    | nil => rfl
    | cons c rest =>
      rcases h.maximal c (hothers.sound c List.mem_cons_self) with hmem | ⟨a, ha, _⟩
      · cases hmem
      · cases ha
  | cons head rest ih =>
    cases others with
    | nil =>
      rcases hothers.maximal head (h.sound head List.mem_cons_self) with hmem | ⟨a, ha, _⟩
      · cases hmem
      · cases ha
    | cons c remaining =>
      -- Each head is the greatest pair, so they are the same.
      have hsame : head = c := by
        rcases hothers.head_greatest (h.sound head List.mem_cons_self) with heq | habove
        · exact heq
        · rcases h.head_greatest (hothers.sound c List.mem_cons_self) with heq | hbelow
          · exact heq.symm
          · exact absurd hbelow habove.asymm
      subst hsame
      rw [ih h.tail hothers.tail]

/-! ## §7. Orphans. -/

/-- Which pairs are eligible does not depend on the order of identifiers. -/
theorem Eligible.perm {known : SortedMap Record} {infos videos others clips : List String}
    (hinfos : infos.Perm others) (hvideos : videos.Perm clips) :
    Eligible known others clips = Eligible known infos videos := by
  funext c
  refine propext ⟨fun h => ?_, fun h => ?_⟩
  · exact ⟨hinfos.mem_iff.2 h.info, hvideos.mem_iff.2 h.video, h.best, h.reaches⟩
  · exact ⟨hinfos.mem_iff.1 h.info, hvideos.mem_iff.1 h.video, h.best, h.reaches⟩

/-- **What is accepted is a greedy choice among the eligible pairs.** -/
theorem greedy_accepted (known : SortedMap Record) (infos videos : List String) :
    Greedy (Eligible known infos videos) (matchOrphans known infos videos).accepted := by
  have hmem : (· ∈ candidates known infos videos) = Eligible known infos videos :=
    funext fun _ => propext mem_candidates
  rw [← hmem]
  exact greedy_accept (pairwise_candidates known infos videos)

/-- What is left of a list when the accepted ones are taken out. -/
theorem filter_not_any (ids : List String) (accepted : List Candidate) (side : Candidate → String) :
    ids.filter (fun id => !accepted.any fun c => side c = id)
      = ids.filter fun id => id ∉ accepted.map side := by
  refine List.filter_congr fun id _ => ?_
  rw [Bool.eq_iff_iff]
  simp

/-- **Orphans are matched greedily.**  The accepted candidates are the one
greedy list of the pairs that may be accepted; what they leave is the rest of
both lists in its order; and permuting a list changes nothing of what is
accepted. -/
theorem matchOrphans_greedy (known : SortedMap Record) (infos videos : List String) :
    Greedy (Eligible known infos videos) (matchOrphans known infos videos).accepted ∧
    (∀ accepted, Greedy (Eligible known infos videos) accepted →
      accepted = (matchOrphans known infos videos).accepted) ∧
    (matchOrphans known infos videos).infos = infos.filter (fun info =>
      info ∉ (matchOrphans known infos videos).accepted.map Candidate.info) ∧
    (matchOrphans known infos videos).videos = videos.filter (fun video =>
      video ∉ (matchOrphans known infos videos).accepted.map Candidate.video) ∧
    ∀ others clips, infos.Perm others → videos.Perm clips →
      (matchOrphans known others clips).accepted = (matchOrphans known infos videos).accepted := by
  have hgreedy := greedy_accepted known infos videos
  refine ⟨hgreedy, fun _ haccepted => haccepted.unique hgreedy, ?_, ?_, ?_⟩
  · exact filter_not_any infos _ Candidate.info
  · exact filter_not_any videos _ Candidate.video
  · intro others clips hinfos hvideos
    have hother := greedy_accepted known others clips
    rw [Eligible.perm hinfos hvideos] at hother
    exact hother.unique hgreedy

/-- A film by its year and with a title, and one by its name alone. -/
def madMaxAndAlien : SortedMap Record :=
  .ofList [("alien", .empty),
    ("mm_1979", { Record.empty with title := .ofList [("en", .plain "Mad Max")] })]

/-- One film is found by its title, the other by its identifier; of the two
videos that are alike enough for it, the one that is more alike is accepted,
however they are listed. -/
theorem matchOrphans_madMaxAndAlien :
    (matchOrphans madMaxAndAlien ["alien", "mm_1979"] ["alien_1", "mad-max", "alien-"]).accepted
      = [⟨.ofNat 1, "mad-max", "mm_1979"⟩, ⟨.roundQuotient 10 11, "alien-", "alien"⟩] ∧
    ["alien_1", "mad-max", "alien-"].Perm ["alien-", "mad-max", "alien_1"] ∧
    (matchOrphans madMaxAndAlien ["alien", "mm_1979"] ["alien-", "mad-max", "alien_1"]).accepted
      = [⟨.ofNat 1, "mad-max", "mm_1979"⟩, ⟨.roundQuotient 10 11, "alien-", "alien"⟩] := by
  obtain ⟨_, hunique, _, _, hperm⟩ := matchOrphans_greedy madMaxAndAlien ["alien", "mm_1979"]
    ["alien_1", "mad-max", "alien-"]
  have hall : unsorted madMaxAndAlien ["alien", "mm_1979"] ["alien_1", "mad-max", "alien-"]
      = [⟨.roundQuotient 10 12, "alien_1", "alien"⟩, ⟨.roundQuotient 10 11, "alien-", "alien"⟩,
        ⟨.ofNat 1, "mad-max", "mm_1979"⟩] := by
    decide +kernel
  have heligible : ∀ c, Eligible madMaxAndAlien ["alien", "mm_1979"]
      ["alien_1", "mad-max", "alien-"] c ↔ c ∈ unsorted madMaxAndAlien ["alien", "mm_1979"]
        ["alien_1", "mad-max", "alien-"] :=
    fun c => mem_candidates.symm.trans List.mem_mergeSort
  have haccepted := hunique
    [⟨.ofNat 1, "mad-max", "mm_1979"⟩, ⟨.roundQuotient 10 11, "alien-", "alien"⟩] {
      descending := by unfold Candidate.Above; decide +kernel
      exclusive := by decide +kernel
      sound := by
        intro c hc
        rw [heligible, hall]
        revert c
        decide +kernel
      maximal := by
        intro c hc
        rw [heligible, hall] at hc
        revert c
        unfold Candidate.Above Candidate.Clash
        decide +kernel }
  have hswap : ["alien_1", "mad-max", "alien-"].Perm ["alien-", "mad-max", "alien_1"] := by
    decide +kernel
  exact ⟨haccepted.symm, hswap, (hperm _ _ (List.Perm.refl _) hswap).trans haccepted.symm⟩

end Matching

end FilmCatalog
