/-
  FilmCatalog.Proofs.Titles.Outcome
  ─────────────────────────────────
  **WHEN A MERGE OF TITLES TELLS WHAT IT DID.**

  With the preference `mine` every step works in its own language, and the
  outcome tells exactly whether the titles changed.

  With the preference `theirs` a step may also drop a title: an original one
  in a new language drives the stored original out.  It can come back in the
  same merge, if the incoming titles hold it, and then the merge reports an
  update although the titles are what they were (`ComesBack`).  This is the
  only way in which that happens:

      outcome = unchanged  ↔  titles as stored, and nothing came back

  The run is followed through two kinds of states: at home, where the titles
  are the stored ones, and `away`, where a guest sits in place of the stored
  original.
-/
import FilmCatalog.Proofs.Titles.NormalForm

namespace FilmCatalog.Titles

open Translated

/-! ## §1. The first original title. -/

/-- The original tag is the first language that has an original title. -/
theorem originalTag?_spec {titles : Titles} {tag : String} (h : originalTag? titles = some tag) :
    (∃ title, SortedMap.get? titles tag = some title ∧ title.original = true) ∧
      ∀ other title, SortedMap.get? titles other = some title → title.original = true →
        tag ≤ other := by
  obtain ⟨⟨first, title⟩, hfind, rfl⟩ := Option.map_eq_some_iff.1 h
  obtain ⟨horiginal, before, after, hentries, hbefore⟩ := List.find?_eq_some_iff_append.1 hfind
  have hmem : (first, title) ∈ titles.entries := List.mem_of_find?_eq_some hfind
  refine ⟨⟨title, SortedMap.mem_entries_iff.1 hmem, horiginal⟩, fun other found hfound hother => ?_⟩
  have hascending := titles.ascending
  have hin := SortedMap.mem_entries_iff.2 hfound
  rw [hentries] at hascending hin
  -- Before the first there is no original title, after it tags are larger.
  rcases List.mem_append.1 hin with hin | hin
  · have hnot := hbefore _ hin
    rw [hother] at hnot
    cases hnot
  · rcases List.mem_cons.1 hin with heq | hin
    · cases heq
      exact String.le_refl _
    · have hafter := (List.pairwise_append.1 hascending).2.1
      exact Std.le_of_lt ((List.pairwise_cons.1 hafter).1 _ hin)

/-- Without an original tag no title is original. -/
theorem originalTag?_eq_none {titles : Titles} (h : originalTag? titles = none) {tag : String}
    {title : Title} (htitle : SortedMap.get? titles tag = some title) : title.original = false := by
  have hfind := List.find?_eq_none.1 (Option.map_eq_none_iff.1 h)
  exact Bool.eq_false_iff.2 (hfind _ (SortedMap.mem_entries_iff.2 htitle))

/-- An original title below all others is the first. -/
theorem originalTag?_eq_some {titles : Titles} {tag : String} {title : Title}
    (htitle : SortedMap.get? titles tag = some title) (horiginal : title.original = true)
    (hfirst : ∀ other found, SortedMap.get? titles other = some found → found.original = true →
      tag ≤ other) : originalTag? titles = some tag := by
  cases h : originalTag? titles with
  | none =>
    rw [originalTag?_eq_none h htitle] at horiginal
    cases horiginal
  | some first =>
    obtain ⟨⟨found, hfound, hother⟩, hleast⟩ := originalTag?_spec h
    have hle := hfirst first found hfound hother
    have hge := hleast tag title htitle horiginal
    rw [String.le_antisymm hge hle]

/-! ## §2. One step with the preference for incoming titles. -/

/-- The titles after one step. -/
def take (titles : Titles) (tag : String) (title : Title) : Titles :=
  (mergeTitle .theirs titles tag title).value

/-- A title in a known language is merged with the stored one. -/
theorem take_of_some {titles : Titles} {tag : String} {current : Title}
    (h : SortedMap.get? titles tag = some current) (title : Title) :
    take titles tag title = SortedMap.insert titles tag (current.merge .theirs title).value := by
  unfold take mergeTitle
  rw [h]
  rfl

/-- A title in a new language is added, if it is not original or there is no
original one to drive out. -/
theorem take_plain {titles : Titles} {tag : String} {title : Title}
    (h : SortedMap.get? titles tag = none)
    (hplain : title.original = false ∨ originalTag? titles = none) :
    take titles tag title = SortedMap.insert titles tag title := by
  have hnone : (if title.original then originalTag? titles else none) = none := by
    rcases hplain with hplain | hplain
    · simp [hplain]
    · simp [hplain]
  unfold take mergeTitle
  rw [h]
  simp only [mergeNew, hnone]
  rfl

/-- An original title in a new language drives the first original one out. -/
theorem take_original {titles : Titles} {tag existing : String} {title : Title}
    (h : SortedMap.get? titles tag = none) (horiginal : title.original = true)
    (hexisting : originalTag? titles = some existing) :
    take titles tag title = SortedMap.insert (SortedMap.erase titles existing) tag title := by
  have hsome : (if title.original then originalTag? titles else none) = some existing := by
    simp [horiginal, hexisting]
  unfold take mergeTitle
  rw [h]
  simp only [mergeNew, hsome]
  rfl

/-- **What a step can do.** -/
theorem take_cases (titles : Titles) (tag : String) (title : Title) :
    (∃ current, SortedMap.get? titles tag = some current ∧
      take titles tag title = SortedMap.insert titles tag (current.merge .theirs title).value) ∨
    (SortedMap.get? titles tag = none ∧
      take titles tag title = SortedMap.insert titles tag title) ∨
    (∃ existing, SortedMap.get? titles tag = none ∧ originalTag? titles = some existing ∧
      take titles tag title = SortedMap.insert (SortedMap.erase titles existing) tag title) := by
  cases htag : SortedMap.get? titles tag with
  | some current => exact .inl ⟨current, rfl, take_of_some htag title⟩
  | none =>
    refine .inr ?_
    cases horiginal : title.original with
    | false => exact .inl ⟨rfl, take_plain htag (.inl horiginal)⟩
    | true =>
      cases hexisting : originalTag? titles with
      | none => exact .inl ⟨rfl, take_plain htag (.inr hexisting)⟩
      | some existing => exact .inr ⟨existing, rfl, rfl, take_original htag horiginal hexisting⟩

/-- A title in a new language is taken as it is. -/
theorem get?_take_new {titles : Titles} {tag : String} (h : SortedMap.get? titles tag = none)
    (title : Title) : SortedMap.get? (take titles tag title) tag = some title := by
  obtain ⟨current, hcurrent, _⟩ | ⟨_, htake⟩ | ⟨existing, _, _, htake⟩ := take_cases titles tag title
  · rw [h] at hcurrent
    cases hcurrent
  · rw [htake, SortedMap.get?_insert_self]
  · rw [htake, SortedMap.get?_insert_self]

/-- In another language a step only drops the first original title, and only
to take in a new language. -/
theorem get?_take_other (titles : Titles) {tag other : String} (title : Title) (h : tag ≠ other) :
    SortedMap.get? (take titles tag title) other = SortedMap.get? titles other ∨
    (SortedMap.get? (take titles tag title) other = none ∧ originalTag? titles = some other ∧
      SortedMap.get? titles tag = none) := by
  obtain ⟨current, _, htake⟩ | ⟨_, htake⟩ | ⟨existing, hnew, hexisting, htake⟩ :=
    take_cases titles tag title
  · exact .inl (by rw [htake, SortedMap.get?_insert_of_ne _ _ h])
  · exact .inl (by rw [htake, SortedMap.get?_insert_of_ne _ _ h])
  · rw [htake, SortedMap.get?_insert_of_ne _ _ h, SortedMap.get?_erase]
    by_cases heq : existing = other
    · rw [if_pos heq]
      exact .inr ⟨rfl, heq ▸ hexisting, hnew⟩
    · rw [if_neg heq]
      exact .inl rfl

/-! ## §3. Runs with the preference for incoming titles. -/

/-- The titles after some steps. -/
def takeAll (titles : Titles) (entries : List (String × Title)) : Titles :=
  entries.foldl (fun titles entry => take titles entry.1 entry.2) titles

theorem takeAll_cons (titles : Titles) (entry : String × Title) (rest : List (String × Title)) :
    takeAll titles (entry :: rest) = takeAll (take titles entry.1 entry.2) rest := rfl

/-- A language that no further step works in keeps its title, or loses an
original one. -/
theorem get?_takeAll (titles : Titles) {entries : List (String × Title)} {tag : String}
    (h : tag ∉ entries.map (·.1)) :
    SortedMap.get? (takeAll titles entries) tag = SortedMap.get? titles tag ∨
    (SortedMap.get? (takeAll titles entries) tag = none ∧
      ∃ title, SortedMap.get? titles tag = some title ∧ title.original = true) := by
  induction entries generalizing titles with
  | nil => exact .inl rfl
  | cons entry rest ih =>
    rw [List.map_cons, List.mem_cons, not_or] at h
    rw [takeAll_cons]
    have hrest := ih (take titles entry.1 entry.2) h.2
    rcases get?_take_other titles entry.2 (Ne.symm h.1) with hsame | ⟨hnone, horiginal, _⟩
    · rwa [hsame] at hrest
    · -- Once the title is gone, nothing brings it back.
      refine .inr ⟨?_, (originalTag?_spec horiginal).1⟩
      rw [hnone] at hrest
      rcases hrest with hrest | ⟨hrest, _⟩
      · exact hrest
      · exact hrest

/-- A difference in a language that no further step works in stays, unless it
is an original title too many. -/
theorem takeAll_ne {stored titles : Titles} {entries : List (String × Title)} {tag : String}
    (htag : tag ∉ entries.map (·.1))
    (hne : SortedMap.get? stored tag ≠ SortedMap.get? titles tag)
    (hplain : SortedMap.get? stored tag = none →
      ∀ title, SortedMap.get? titles tag = some title → title.original = false) :
    takeAll titles entries ≠ stored := by
  intro heq
  have hget := get?_takeAll titles htag
  rw [heq] at hget
  rcases hget with hsame | ⟨hnone, title, htitle, horiginal⟩
  · exact hne hsame
  · rw [hplain hnone title htitle] at horiginal
    cases horiginal

/-! ## §4. Settled titles, guests and the way back. -/

/-- An incoming title that leaves the stored one as it is. -/
def Settled (stored : Titles) (tag : String) (title : Title) : Prop :=
  ∃ current, SortedMap.get? stored tag = some current ∧ (current.merge .theirs title).value = current

/-- An incoming original title in a new language, before the language of the
stored original. -/
def Passing (stored : Titles) (home tag : String) (title : Title) : Prop :=
  SortedMap.get? stored tag = none ∧ title.original = true ∧ tag < home

/-- **The stored original is driven out and comes back**: the incoming titles
hold it, some of them in new languages take its place for a while, and all
others change nothing. -/
def ComesBack (stored incoming : Titles) : Prop :=
  ∃ home title, originalTag? stored = some home ∧ SortedMap.get? stored home = some title ∧
    SortedMap.get? incoming home = some title ∧
    (∀ tag found, SortedMap.get? incoming tag = some found →
      Settled stored tag found ∨ Passing stored home tag found) ∧
    ∃ tag found, SortedMap.get? incoming tag = some found ∧ SortedMap.get? stored tag = none

/-- The stored titles with a guest in place of the original one. -/
def away (stored : Titles) (home guest : String) (title : Title) : Titles :=
  SortedMap.insert (SortedMap.erase stored home) guest title

theorem get?_away (stored : Titles) (home guest : String) (title : Title) (tag : String) :
    SortedMap.get? (away stored home guest title) tag
      = if guest = tag then some title
        else if home = tag then none else SortedMap.get? stored tag := by
  unfold away
  rw [SortedMap.get?_insert, SortedMap.get?_erase]

section Home

variable {stored : Titles} {home : String} {original : Title}

/-- The way back through the rest of a run. -/
def WayBack (stored : Titles) (home : String) (original : Title)
    (entries : List (String × Title)) : Prop :=
  (home, original) ∈ entries ∧
    ∀ entry ∈ entries, Settled stored entry.1 entry.2 ∨ Passing stored home entry.1 entry.2

/-- A way back starts with a title that is settled or passes, if home comes
later. -/
theorem wayBack_cons {entry : String × Title} {rest : List (String × Title)} (h : entry.1 ≠ home) :
    WayBack stored home original (entry :: rest) ↔
      (Settled stored entry.1 entry.2 ∨ Passing stored home entry.1 entry.2) ∧
        WayBack stored home original rest := by
  unfold WayBack
  rw [List.forall_mem_cons, List.mem_cons]
  have hne : (home, original) ≠ entry := fun heq => h (heq ▸ rfl)
  constructor
  · rintro ⟨hmem, hentry, hrest⟩
    exact ⟨hentry, hmem.resolve_left hne, hrest⟩
  · rintro ⟨hentry, hmem, hrest⟩
    exact ⟨.inr hmem, hentry, hrest⟩

/-- Beyond the home language there is no way back any more, and nothing but
settled titles leaves the stored ones. -/
theorem not_wayBack {entries : List (String × Title)} (h : ∀ entry ∈ entries, home < entry.1) :
    ¬ WayBack stored home original entries := by
  intro hback
  exact String.lt_irrefl home (h _ hback.1)

/-- The guest is the first original title, as it stands before home. -/
theorem originalTag?_away (horiginal : originalTag? stored = some home) {guest : String}
    {title : Title} (htitle : title.original = true) (hguest : guest < home) :
    originalTag? (away stored home guest title) = some guest := by
  refine originalTag?_eq_some ?_ htitle fun other found hfound hother => ?_
  · rw [get?_away, if_pos rfl]
  · rw [get?_away] at hfound
    by_cases hsame : guest = other
    · exact hsame ▸ String.le_refl _
    · rw [if_neg hsame] at hfound
      by_cases hhome : home = other
      · exact hhome ▸ Std.le_of_lt hguest
      · rw [if_neg hhome] at hfound
        have hle := (originalTag?_spec horiginal).2 other found hfound hother
        exact Std.le_of_lt (Std.lt_of_lt_of_le hguest hle)

/-- A guest gives way to the next one. -/
theorem take_away_original (horiginal : originalTag? stored = some home) {guest tag : String}
    {title next : Title} (hstored : SortedMap.get? stored guest = none)
    (htitle : title.original = true) (hguest : guest < home) (hnext : next.original = true)
    (htag : SortedMap.get? (away stored home guest title) tag = none) :
    take (away stored home guest title) tag next
      = SortedMap.insert (SortedMap.erase stored home) tag next := by
  rw [take_original htag hnext (originalTag?_away horiginal htitle hguest)]
  refine SortedMap.ext_get? fun other => ?_
  rw [SortedMap.get?_insert, SortedMap.get?_insert]
  by_cases hother : tag = other
  · rw [if_pos hother, if_pos hother]
  · rw [if_neg hother, if_neg hother, SortedMap.get?_erase, get?_away, SortedMap.get?_erase]
    by_cases hsame : guest = other
    · rw [if_pos hsame, ← hsame, hstored, ite_self]
    · rw [if_neg hsame, if_neg hsame]

/-- The original title comes home. -/
theorem insert_erase_home (hhome : SortedMap.get? stored home = some original) :
    SortedMap.insert (SortedMap.erase stored home) home original = stored := by
  refine SortedMap.ext_get? fun other => ?_
  rw [SortedMap.get?_insert, SortedMap.get?_erase]
  by_cases hother : home = other
  · rw [if_pos hother, ← hother, hhome]
  · rw [if_neg hother, if_neg hother]

/-- A title that is neither settled nor a guest leaves a difference for
good. -/
theorem takeAll_take_ne {titles : Titles} {entry : String × Title} {rest : List (String × Title)}
    (hentry : entry.1 ∉ rest.map (·.1))
    (hsame : SortedMap.get? titles entry.1 = SortedMap.get? stored entry.1)
    (hsettled : ¬ Settled stored entry.1 entry.2)
    (hguest : ¬ (SortedMap.get? stored entry.1 = none ∧ entry.2.original = true)) :
    takeAll (take titles entry.1 entry.2) rest ≠ stored := by
  refine takeAll_ne hentry ?_ ?_
  · intro heq
    cases hstored : SortedMap.get? stored entry.1 with
    | none =>
      rw [hstored] at hsame heq
      rw [get?_take_new hsame] at heq
      cases heq
    | some current =>
      rw [hstored] at hsame heq
      rw [take_of_some hsame, SortedMap.get?_insert_self, Option.some.injEq] at heq
      exact hsettled ⟨current, hstored, heq.symm⟩
  · intro hnone title htitle
    rw [get?_take_new (hsame.trans hnone), Option.some.injEq] at htitle
    rw [← htitle]
    exact Bool.eq_false_iff.2 fun horiginal => hguest ⟨hnone, horiginal⟩

/-- A settled title changes nothing in titles that agree with the stored ones
in its language. -/
theorem take_settled {titles : Titles} {tag : String} {title : Title}
    (hsame : SortedMap.get? titles tag = SortedMap.get? stored tag)
    (h : Settled stored tag title) : take titles tag title = titles := by
  obtain ⟨current, hcurrent, hmerge⟩ := h
  rw [hcurrent] at hsame
  rw [take_of_some hsame, hmerge, SortedMap.insert_of_get? hsame]

/-- Behind home only settled titles are left on a way back. -/
theorem settled_of_behind {entries : List (String × Title)}
    (hbehind : ∀ entry ∈ entries, home < entry.1)
    (h : ∀ entry ∈ entries, Settled stored entry.1 entry.2 ∨ Passing stored home entry.1 entry.2) :
    ∀ entry ∈ entries, Settled stored entry.1 entry.2 := by
  intro entry hentry
  refine (h entry hentry).resolve_right fun hpassing => ?_
  exact String.lt_asymm hpassing.2.2 (hbehind entry hentry)

/-- From the stored titles a run ends at home if all titles are settled or if
there is a way back. -/
def HomeLaw (stored : Titles) (home : String) (original : Title)
    (entries : List (String × Title)) : Prop :=
  takeAll stored entries = stored ↔
    (∀ entry ∈ entries, Settled stored entry.1 entry.2) ∨ WayBack stored home original entries

/-- With a guest in place of the original title a run ends at home if the
guest stands before home and there is a way back. -/
def AwayLaw (stored : Titles) (home : String) (original : Title)
    (entries : List (String × Title)) : Prop :=
  ∀ guest title, SortedMap.get? stored guest = none → title.original = true →
    (∀ entry ∈ entries, guest < entry.1) →
    (takeAll (away stored home guest title) entries = stored ↔
      guest < home ∧ WayBack stored home original entries)

section Step

variable {entry : String × Title} {rest : List (String × Title)}

/-- The law at home for one entry more, from both laws for the rest. -/
theorem homeLaw_cons (horiginal : originalTag? stored = some home)
    (hhome : SortedMap.get? stored home = some original)
    (hfirst : ∀ other ∈ rest, entry.1 < other.1) (hentry : entry.1 ∉ rest.map (·.1))
    (ihhome : HomeLaw stored home original rest) (ihaway : AwayLaw stored home original rest) :
    HomeLaw stored home original (entry :: rest) := by
  unfold HomeLaw at ihhome ⊢
  rw [takeAll_cons]
  by_cases hsettled : Settled stored entry.1 entry.2
  · rw [take_settled rfl hsettled, ihhome, List.forall_mem_cons]
    by_cases heq : entry.1 = home
    · -- At home no guest can follow: the rest has to be settled either way.
      have hbehind : ∀ other ∈ rest, home < other.1 := heq ▸ hfirst
      constructor
      · rintro (hall | hback)
        · exact .inl ⟨hsettled, hall⟩
        · exact absurd hback (not_wayBack hbehind)
      · rintro (hall | hback)
        · exact .inl hall.2
        · exact .inl (settled_of_behind hbehind (List.forall_mem_cons.1 hback.2).2)
    · simp only [wayBack_cons heq, hsettled, true_and, true_or]
  · by_cases hnew : SortedMap.get? stored entry.1 = none ∧ entry.2.original = true
    · -- The original title is driven out.
      have hne : entry.1 ≠ home := by
        intro heq
        rw [heq, hhome] at hnew
        cases hnew.1
      have haway := ihaway entry.1 entry.2 hnew.1 hnew.2 hfirst
      rw [take_original hnew.1 hnew.2 horiginal]
      show takeAll (away stored home entry.1 entry.2) rest = stored ↔ _
      rw [haway, wayBack_cons hne]
      constructor
      · rintro ⟨hlt, hback⟩
        exact .inr ⟨.inr ⟨hnew.1, hnew.2, hlt⟩, hback⟩
      · rintro (hall | ⟨hhead, hback⟩)
        · exact absurd (hall entry List.mem_cons_self) hsettled
        · exact ⟨(hhead.resolve_left hsettled).2.2, hback⟩
    · have hlost := takeAll_take_ne hentry rfl hsettled hnew
      constructor
      · exact fun hreturn => absurd hreturn hlost
      · rintro (hall | hback)
        · exact absurd (hall entry List.mem_cons_self) hsettled
        · have hpassing := (hback.2 entry List.mem_cons_self).resolve_left hsettled
          exact absurd ⟨hpassing.1, hpassing.2.1⟩ hnew

/-- With a guest, at the home language: either the original title comes home,
or another one sits there for good. -/
theorem away_at_home (hnormal : Forall Title.Normal stored)
    (horiginal : originalTag? stored = some home)
    (hhome : SortedMap.get? stored home = some original) (heq : entry.1 = home)
    (hfirst : ∀ other ∈ rest, entry.1 < other.1) (hentry : entry.1 ∉ rest.map (·.1))
    (ihhome : HomeLaw stored home original rest) {guest : String} {title : Title}
    (hguest : SortedMap.get? stored guest = none) (htitle : title.original = true)
    (hlt : guest < home)
    (hvacant : SortedMap.get? (away stored home guest title) home = none) :
    takeAll (take (away stored home guest title) entry.1 entry.2) rest = stored ↔
      WayBack stored home original (entry :: rest) := by
  unfold HomeLaw at ihhome
  have hbehind : ∀ other ∈ rest, home < other.1 := heq ▸ hfirst
  by_cases hsame : entry.2 = original
  · -- The guest is the first original title now, so it is the one that has to go.
    obtain ⟨⟨found, hfound, hmarked⟩, _⟩ := originalTag?_spec horiginal
    rw [hhome, Option.some.injEq] at hfound
    have hback : take (away stored home guest title) entry.1 entry.2 = stored := by
      rw [heq, hsame, take_away_original horiginal hguest htitle hlt (hfound ▸ hmarked) hvacant,
        insert_erase_home hhome]
    have hself : Settled stored entry.1 entry.2 := by
      refine ⟨original, heq ▸ hhome, ?_⟩
      rw [hsame, Title.merge_self (hnormal home original hhome)]
      rfl
    rw [hback, ihhome]
    constructor
    · rintro (hall | hwayBack)
      · refine ⟨List.mem_cons.2 (.inl ?_), List.forall_mem_cons.2 ⟨.inl hself, ?_⟩⟩
        · exact Prod.ext heq.symm hsame.symm
        · exact fun other hother => .inl (hall other hother)
      · exact absurd hwayBack (not_wayBack hbehind)
    · intro hwayBack
      exact .inl (settled_of_behind hbehind (List.forall_mem_cons.1 hwayBack.2).2)
  · have hlost : takeAll (take (away stored home guest title) entry.1 entry.2) rest ≠ stored := by
      refine takeAll_ne hentry ?_ fun hnone => ?_
      · rw [heq, hhome, get?_take_new hvacant]
        exact fun hfound => hsame (Option.some.inj hfound).symm
      · rw [heq, hhome] at hnone
        cases hnone
    refine ⟨fun hreturn => absurd hreturn hlost, fun hwayBack => ?_⟩
    rcases List.mem_cons.1 hwayBack.1 with hhead | hrest
    · exact absurd (congrArg Prod.snd hhead).symm hsame
    · exact absurd (heq ▸ List.mem_map_of_mem hrest) hentry

/-- With a guest, in another language: a settled title changes nothing, the
next guest takes over, and any other title leaves a difference for good. -/
theorem away_elsewhere (horiginal : originalTag? stored = some home) (hne : entry.1 ≠ home)
    (hfirst : ∀ other ∈ rest, entry.1 < other.1) (hentry : entry.1 ∉ rest.map (·.1))
    (ihaway : AwayLaw stored home original rest) {guest : String} {title : Title}
    (hguest : SortedMap.get? stored guest = none) (htitle : title.original = true)
    (hlt : guest < home) (hbelow : ∀ other ∈ entry :: rest, guest < other.1) :
    takeAll (take (away stored home guest title) entry.1 entry.2) rest = stored ↔
      WayBack stored home original (entry :: rest) := by
  obtain ⟨hguestFirst, hguestRest⟩ := List.forall_mem_cons.1 hbelow
  have hkept : SortedMap.get? (away stored home guest title) entry.1
      = SortedMap.get? stored entry.1 := by
    rw [get?_away, if_neg fun h => String.lt_irrefl _ (h ▸ hguestFirst), if_neg (Ne.symm hne)]
  rw [wayBack_cons hne]
  by_cases hsettled : Settled stored entry.1 entry.2
  · rw [take_settled hkept hsettled, ihaway guest title hguest htitle hguestRest]
    simp only [hlt, hsettled, true_and, true_or]
  · by_cases hnew : SortedMap.get? stored entry.1 = none ∧ entry.2.original = true
    · have hnext : take (away stored home guest title) entry.1 entry.2
          = away stored home entry.1 entry.2 :=
        take_away_original horiginal hguest htitle hlt hnew.2 (hkept.trans hnew.1)
      rw [hnext, ihaway entry.1 entry.2 hnew.1 hnew.2 hfirst]
      constructor
      · rintro ⟨hbefore, hback⟩
        exact ⟨.inr ⟨hnew.1, hnew.2, hbefore⟩, hback⟩
      · rintro ⟨hhead, hback⟩
        exact ⟨(hhead.resolve_left hsettled).2.2, hback⟩
    · have hlost := takeAll_take_ne hentry hkept hsettled hnew
      refine ⟨fun hreturn => absurd hreturn hlost, fun hback => ?_⟩
      have hpassing := hback.1.resolve_left hsettled
      exact absurd ⟨hpassing.1, hpassing.2.1⟩ hnew

/-- The law with a guest for one entry more, from both laws for the rest. -/
theorem awayLaw_cons (hnormal : Forall Title.Normal stored)
    (horiginal : originalTag? stored = some home)
    (hhome : SortedMap.get? stored home = some original)
    (hfirst : ∀ other ∈ rest, entry.1 < other.1) (hentry : entry.1 ∉ rest.map (·.1))
    (ihhome : HomeLaw stored home original rest) (ihaway : AwayLaw stored home original rest) :
    AwayLaw stored home original (entry :: rest) := by
  intro guest title hguest htitle hbelow
  have hnotHome : guest ≠ home := by
    intro heq
    rw [heq, hhome] at hguest
    cases hguest
  have hvacant : SortedMap.get? (away stored home guest title) home = none := by
    rw [get?_away, if_neg hnotHome, if_pos rfl]
  by_cases hmem : home ∈ (entry :: rest).map (·.1)
  · have hlt : guest < home := by
      obtain ⟨other, hother, heq⟩ := List.mem_map.1 hmem
      exact heq ▸ hbelow other hother
    rw [takeAll_cons, and_iff_right hlt]
    by_cases heq : entry.1 = home
    · exact away_at_home hnormal horiginal hhome heq hfirst hentry ihhome hguest htitle hlt hvacant
    · exact away_elsewhere horiginal heq hfirst hentry ihaway hguest htitle hlt hbelow
  · -- Nothing fills the gap at home.
    have hlost : takeAll (away stored home guest title) (entry :: rest) ≠ stored := by
      refine takeAll_ne hmem ?_ fun hnone => ?_
      · rw [hhome, hvacant]
        simp
      · rw [hhome] at hnone
        cases hnone
    refine ⟨fun hreturn => absurd hreturn hlost, fun hback => ?_⟩
    exact absurd (List.mem_map_of_mem hback.2.1) hmem

end Step

/-- **The runs that end at home.** -/
theorem homeLaw_and_awayLaw (hnormal : Forall Title.Normal stored)
    (horiginal : originalTag? stored = some home)
    (hhome : SortedMap.get? stored home = some original) {entries : List (String × Title)}
    (hascending : Entries.Ascending entries) :
    HomeLaw stored home original entries ∧ AwayLaw stored home original entries := by
  induction entries with
  | nil =>
    refine ⟨⟨fun _ => .inl (by simp), fun _ => rfl⟩, fun guest title hguest _ _ => ?_⟩
    constructor
    · intro hreturn
      -- The guest is still there, and it is not among the stored titles.
      have hfound : SortedMap.get? stored guest = some title := by
        rw [← hreturn]
        exact (get?_away stored home guest title guest).trans (if_pos rfl)
      rw [hguest] at hfound
      cases hfound
    · rintro ⟨_, hback, _⟩
      cases hback
  | cons entry rest ih =>
    obtain ⟨hfirst, hrest⟩ := List.pairwise_cons.1 hascending
    obtain ⟨ihhome, ihaway⟩ := ih hrest
    have hentry : entry.1 ∉ rest.map (·.1) := by
      intro hmem
      obtain ⟨other, hother, heq⟩ := List.mem_map.1 hmem
      exact String.lt_irrefl _ (heq ▸ hfirst other hother)
    exact ⟨homeLaw_cons horiginal hhome hfirst hentry ihhome ihaway,
      awayLaw_cons hnormal horiginal hhome hfirst hentry ihhome ihaway⟩

end Home

/-! ## §5. Runs from titles without an original one. -/

section NoOriginal

variable {stored : Titles}

/-- A guest in a new language is there to the end, or the one that drove it
out is. -/
theorem guest_stays (hstored : originalTag? stored = none) {entries : List (String × Title)}
    (hkeys : (entries.map (·.1)).Nodup) {titles : Titles}
    (hnew : ∀ entry ∈ entries, SortedMap.get? titles entry.1 = SortedMap.get? stored entry.1)
    {guest : String} (hguest : guest ∉ entries.map (·.1))
    (hfresh : SortedMap.get? stored guest = none) (hthere : SortedMap.get? titles guest ≠ none) :
    takeAll titles entries ≠ stored := by
  induction entries generalizing titles guest with
  | nil =>
    rintro rfl
    exact hthere hfresh
  | cons entry rest ih =>
    obtain ⟨hentry, hrest⟩ := List.nodup_cons.1 hkeys
    obtain ⟨hfirst, hothers⟩ := List.forall_mem_cons.1 hnew
    rw [List.map_cons, List.mem_cons, not_or] at hguest
    rw [takeAll_cons]
    -- Only guests are original, so the languages to come are left alone.
    have hkept : ∀ other ∈ rest, SortedMap.get? (take titles entry.1 entry.2) other.1
        = SortedMap.get? stored other.1 := by
      intro other hother
      have hne : entry.1 ≠ other.1 := fun heq =>
        hentry (List.mem_map.2 ⟨other, hother, heq.symm⟩)
      rcases get?_take_other titles entry.2 hne with hsame | ⟨_, horiginal, _⟩
      · rw [hsame, hothers other hother]
      · obtain ⟨⟨title, htitle, hmarked⟩, _⟩ := originalTag?_spec horiginal
        rw [hothers other hother] at htitle
        rw [originalTag?_eq_none hstored htitle] at hmarked
        cases hmarked
    rcases get?_take_other titles entry.2 (Ne.symm hguest.1) with hsame | ⟨_, _, hvacant⟩
    · exact ih hrest hkept hguest.2 hfresh (hsame ▸ hthere)
    · -- The guest was driven out by the title of this step, which is a guest itself.
      refine ih hrest hkept hentry (hfirst ▸ hvacant) ?_
      rw [get?_take_new hvacant]
      simp

/-- Without a stored original there is no way back. -/
theorem takeAll_eq_iff_of_none (hstored : originalTag? stored = none)
    {entries : List (String × Title)} (hkeys : (entries.map (·.1)).Nodup) :
    takeAll stored entries = stored ↔ ∀ entry ∈ entries, Settled stored entry.1 entry.2 := by
  induction entries with
  | nil => exact ⟨fun _ => by simp, fun _ => rfl⟩
  | cons entry rest ih =>
    obtain ⟨hentry, hrest⟩ := List.nodup_cons.1 hkeys
    rw [takeAll_cons, List.forall_mem_cons]
    by_cases hsettled : Settled stored entry.1 entry.2
    · rw [take_settled rfl hsettled, ih hrest, and_iff_right hsettled]
    · have hlost : takeAll (take stored entry.1 entry.2) rest ≠ stored := by
        by_cases hnew : SortedMap.get? stored entry.1 = none ∧ entry.2.original = true
        · rw [take_plain hnew.1 (.inr hstored)]
          refine guest_stays hstored hrest ?_ hentry hnew.1 ?_
          · intro other hother
            refine SortedMap.get?_insert_of_ne stored entry.2 fun heq => hentry ?_
            exact List.mem_map.2 ⟨other, hother, heq.symm⟩
          · rw [SortedMap.get?_insert_self]
            simp
        · exact takeAll_take_ne hentry rfl hsettled hnew
      exact ⟨fun hreturn => absurd hreturn hlost, fun hall => absurd hall.1 hsettled⟩

end NoOriginal

/-! ## §6. Outcomes. -/

/-- A merge that prefers incoming titles takes all of them, one after the
other. -/
theorem value_merge_theirs (stored incoming : Titles) :
    (merge .theirs stored incoming).value = takeAll stored incoming.entries := by
  rw [merge_eq_run, Merged.value_run]
  rfl

/-- A way back that is needed. -/
theorem comesBack_iff {stored incoming : Titles} {home : String} {original : Title}
    (horiginal : originalTag? stored = some home)
    (hhome : SortedMap.get? stored home = some original)
    (hmoved : ¬ ∀ entry ∈ incoming.entries, Settled stored entry.1 entry.2) :
    WayBack stored home original incoming.entries ↔ ComesBack stored incoming := by
  constructor
  · rintro ⟨hback, hall⟩
    refine ⟨home, original, horiginal, hhome, SortedMap.mem_entries_iff.1 hback, ?_, ?_⟩
    · exact fun tag found hfound => hall (tag, found) (SortedMap.mem_entries_iff.2 hfound)
    · -- A title that is not settled is a guest.
      obtain ⟨entry, hmoved⟩ := Classical.not_forall.1 hmoved
      obtain ⟨hentry, hnot⟩ := Classical.not_imp.1 hmoved
      exact ⟨entry.1, entry.2, SortedMap.get?_of_mem_entries hentry,
        ((hall entry hentry).resolve_left hnot).1⟩
  · rintro ⟨other, title, hother, htitle, hback, hall, _⟩
    rw [horiginal, Option.some.injEq] at hother
    subst hother
    rw [hhome, Option.some.injEq] at htitle
    subst htitle
    exact ⟨SortedMap.mem_entries_iff.2 hback, fun entry hentry =>
      hall entry.1 entry.2 (SortedMap.get?_of_mem_entries hentry)⟩

/-- **What the merge did to the titles**: it ends with the stored ones if all
incoming titles are settled, or if the stored original comes back. -/
theorem merge_theirs_eq_iff {stored : Titles} (hnormal : Forall Title.Normal stored)
    (incoming : Titles) :
    (merge .theirs stored incoming).value = stored ↔
      (∀ entry ∈ incoming.entries, Settled stored entry.1 entry.2) ∨ ComesBack stored incoming := by
  rw [value_merge_theirs]
  cases horiginal : originalTag? stored with
  | none =>
    rw [takeAll_eq_iff_of_none horiginal (Entries.nodup_keys incoming.ascending)]
    refine ⟨.inl, fun h => h.resolve_right ?_⟩
    rintro ⟨home, title, hhome, _⟩
    rw [horiginal] at hhome
    cases hhome
  | some home =>
    obtain ⟨⟨original, hhome, _⟩, _⟩ := originalTag?_spec horiginal
    refine (homeLaw_and_awayLaw hnormal horiginal hhome incoming.ascending).1.trans ?_
    by_cases hall : ∀ entry ∈ incoming.entries, Settled stored entry.1 entry.2
    · exact ⟨fun _ => .inl hall, fun _ => .inl hall⟩
    · exact or_congr_right (comesBack_iff horiginal hhome hall)

/-- A settled title is reported as no change, every other one as an update. -/
theorem mergeTitle_theirs_settled {stored : Titles} {tag : String} {title : Title}
    (h : Settled stored tag title) : mergeTitle .theirs stored tag title = .keep stored := by
  obtain ⟨current, hcurrent, hmerge⟩ := h
  refine Merged.eq_mk (take_settled rfl ⟨current, hcurrent, hmerge⟩) ?_
  unfold mergeTitle
  rw [hcurrent]
  show Outcome.ofChanged (current ≠ (current.merge .theirs title).value) = .unchanged
  rw [hmerge]
  simp [Outcome.ofChanged]

/-- A title that is not settled is reported as an update. -/
theorem mergeTitle_theirs_outcome {stored : Titles} {tag : String} {title : Title}
    (h : ¬ Settled stored tag title) :
    (mergeTitle .theirs stored tag title).outcome = .updated := by
  unfold mergeTitle
  cases hcurrent : SortedMap.get? stored tag with
  | some current =>
    have hne : current ≠ (current.merge .theirs title).value := fun heq =>
      h ⟨current, hcurrent, heq.symm⟩
    show Outcome.ofChanged (current ≠ (current.merge .theirs title).value) = .updated
    rw [decide_eq_true hne]
    rfl
  | none =>
    simp only [mergeNew]
    split
    · rfl
    · rfl

/-- **A merge reports no change exactly if every incoming title is settled.** -/
theorem outcome_merge_theirs (stored : Titles) (incoming : Titles) :
    (merge .theirs stored incoming).outcome ≠ .absent ∧
    ((merge .theirs stored incoming).outcome = .unchanged ↔
      ∀ entry ∈ incoming.entries, Settled stored entry.1 entry.2) := by
  rw [merge_eq_run]
  induction incoming.entries with
  | nil => exact ⟨by simp [Merged.run, Merged.keep], by simp [Merged.run, Merged.keep]⟩
  | cons entry rest ih =>
    rw [Merged.run_cons, List.forall_mem_cons]
    by_cases hsettled : Settled stored entry.1 entry.2
    · have hstep := mergeTitle_theirs_settled hsettled
      rw [Merged.keep_andThen (by rw [hstep]; simp [Merged.keep]), hstep, and_iff_right hsettled]
      exact ih
    · have hstep : mergeTitle .theirs stored entry.1 entry.2
          = ⟨take stored entry.1 entry.2, .updated⟩ :=
        Merged.eq_mk rfl (mergeTitle_theirs_outcome hsettled)
      rw [Merged.keep_andThen (by rw [hstep]; simp), hstep, Merged.outcome_run_updated]
      simp [hsettled]

/-- With the preference for stored titles every step works in its own
language. -/
theorem local_mergeTitle_mine : Merged.Local (mergeTitle .mine) where
  elsewhere := by
    intro titles tag title other hne
    unfold mergeTitle
    split
    · exact SortedMap.get?_insert_of_ne titles _ hne
    · unfold mergeNew
      split
      · exact SortedMap.get?_insert_of_ne titles title hne
      · rfl
  there := by
    intro titles tag title
    unfold mergeTitle
    cases hcurrent : SortedMap.get? titles tag with
    | some current =>
      simp only [Merged.into, Title.merge, Merged.replace, SortedMap.get?_insert_self, ne_eq,
        Option.some.injEq]
    | none =>
      unfold mergeNew
      rcases Option.eq_none_or_eq_some (if title.original then originalTag? titles else none)
        with hnone | ⟨existing, hsome⟩
      · simp only [hnone, Merged.change, SortedMap.get?_insert_self]
        rfl
      · simp [hsome, Merged.keep, hcurrent, Outcome.ofChanged]

/-- **The outcome of a merge of titles**: nothing changed exactly if the titles
are the stored ones and no original title was driven out and came back. -/
theorem outcome_merge (prefer : Preference) {stored : Titles}
    (hnormal : Forall Title.Normal stored) (incoming : Titles) :
    (merge prefer stored incoming).outcome ≠ .absent ∧
    ((merge prefer stored incoming).outcome = .unchanged ↔
      (merge prefer stored incoming).value = stored ∧
        ¬ (prefer = .theirs ∧ ComesBack stored incoming)) := by
  cases prefer with
  | mine =>
    have hexact := local_mergeTitle_mine.exact_run (Entries.nodup_keys incoming.ascending) stored
    rw [← merge_eq_run] at hexact
    exact ⟨hexact.ne_absent, hexact.unchanged_iff.trans ⟨fun h => ⟨h, by simp⟩, fun h => h.1⟩⟩
  | theirs =>
    obtain ⟨hpresent, hunchanged⟩ := outcome_merge_theirs stored incoming
    refine ⟨hpresent, ?_⟩
    rw [hunchanged, merge_theirs_eq_iff hnormal]
    constructor
    · intro hall
      refine ⟨.inl hall, ?_⟩
      -- A guest would not be settled.
      rintro ⟨_, _, _, _, _, _, _, tag, found, hfound, hnew⟩
      obtain ⟨current, hcurrent, _⟩ := hall (tag, found) (SortedMap.mem_entries_iff.2 hfound)
      rw [hnew] at hcurrent
      cases hcurrent
    · rintro ⟨hall | hback, hnot⟩
      · exact hall
      · exact absurd ⟨rfl, hback⟩ hnot

end FilmCatalog.Titles
