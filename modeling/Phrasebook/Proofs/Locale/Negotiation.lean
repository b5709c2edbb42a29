import Phrasebook.Locale.Negotiation
import Phrasebook.Proofs.Locale.TagOrder

/-!
# What a negotiation depends on

Negotiating reads the available tags from the front and stops at the requested one, so it sees
different parts of a list in different orders. Its outcome depends only on which tags the list
has.

- `relatives?_eq`: the single pass over the list, as a membership test and a filter.
- `leastTag?_eq_some_iff`: the least tag, by what makes it the least.
- `negotiate_eq`: the three tiers without the list's order.
- `negotiate_eq_least`: the least tag of the language is the bare language, if that is available.
- `negotiate_of_relatives`: only the tags of the requested language matter.
- `Settles`, `negotiate_settles`: the outcome, tier by tier.
- `mem_of_tag?_negotiate`: whatever is chosen is available.
-/

namespace Phrasebook.Locale

open Storage (bytesOf)

/-! ## The pass over the list -/

theorem relatives?_eq (requested : Tag) (ts : List Tag) :
    relatives? requested ts
      = if requested ∈ ts then none else some (ts.filter fun t => t.sameLanguage requested) := by
  induction ts with
  | nil => rfl
  | cons t ts ih =>
    unfold relatives?
    by_cases here : t = requested
    · rw [if_pos here, here, if_pos List.mem_cons_self]
    · rw [if_neg here, ih]
      by_cases later : requested ∈ ts
      · rw [if_pos later, if_pos (List.mem_cons_of_mem t later)]
        rfl
      · have nowhere : requested ∉ t :: ts := by
          rw [List.mem_cons, not_or]
          exact ⟨Ne.symm here, later⟩
        rw [if_neg later, if_neg nowhere, List.filter_cons]
        rfl

namespace Tag

/-- A bare language is all there is to such a tag. -/
theorem eq_languageOnly_iff (t u : Tag) :
    t = u.languageOnly ↔ t.isLanguageOnly = true ∧ t.sameLanguage u = true := by
  constructor
  · rintro rfl
    exact ⟨rfl, beq_self_eq_true u.language⟩
  · rintro ⟨bare, same⟩
    obtain ⟨language, subtags, canonical⟩ := t
    have hs : subtags = [] := List.isEmpty_iff.mp bare
    have hl : language = u.language := eq_of_beq same
    subst hs hl
    rfl

/-! ## The least tag -/

theorem least_eq_or (t u : Tag) : t.least u = t ∨ t.least u = u := by
  unfold least
  split
  · exact .inr rfl
  · exact .inl rfl

theorem least_le_left (t u : Tag) : (compare (t.least u) t).isLE = true := by
  unfold least
  split
  · rename_i less
    rw [less]
    rfl
  · exact Std.ReflCmp.isLE_rfl

theorem least_le_right (t u : Tag) : (compare (t.least u) u).isLE = true := by
  unfold least
  split
  · exact Std.ReflCmp.isLE_rfl
  · rename_i notLess
    exact Decidable.byContradiction fun above => notLess (Std.OrientedCmp.lt_of_not_isLE above)

/-- Two tags that are not above each other are equal. -/
theorem le_antisymm {t u : Tag} (htu : (compare t u).isLE = true)
    (hut : (compare u t).isLE = true) : t = u :=
  Std.LawfulEqOrd.eq_of_compare (Std.OrientedCmp.isLE_antisymm htu hut)

end Tag

/-- A fold of `least` yields an element below all others. -/
theorem foldl_least (ts : List Tag) (t : Tag) :
    ts.foldl Tag.least t ∈ t :: ts ∧
      ∀ u ∈ t :: ts, (compare (ts.foldl Tag.least t) u).isLE = true := by
  induction ts generalizing t with
  | nil =>
    refine ⟨List.mem_singleton.mpr rfl, fun u hu => ?_⟩
    rw [List.mem_singleton.mp hu]
    exact Std.ReflCmp.isLE_rfl
  | cons v ts ih =>
    obtain ⟨mem, below⟩ := ih (t.least v)
    have below_least := below _ List.mem_cons_self
    rw [List.foldl_cons]
    refine ⟨?_, fun u hu => ?_⟩
    · rcases List.mem_cons.mp mem with same | mem
      · rw [same]
        rcases t.least_eq_or v with same | same <;> simp [same]
      · exact List.mem_cons_of_mem t (List.mem_cons_of_mem v mem)
    · rcases List.mem_cons.mp hu with rfl | hu
      · exact Std.TransCmp.isLE_trans below_least (u.least_le_left v)
      · rcases List.mem_cons.mp hu with rfl | hu
        · exact Std.TransCmp.isLE_trans below_least (t.least_le_right u)
        · exact below u (List.mem_cons_of_mem _ hu)

/-- **The least tag** is the one that is in the list and below all of it. -/
theorem leastTag?_eq_some_iff (ts : List Tag) (t : Tag) :
    leastTag? ts = some t ↔ t ∈ ts ∧ ∀ u ∈ ts, (compare t u).isLE = true := by
  cases ts with
  | nil => simp [leastTag?]
  | cons v ts =>
    obtain ⟨mem, below⟩ := foldl_least ts v
    show some (ts.foldl Tag.least v) = some t ↔ _
    rw [Option.some_inj]
    constructor
    · rintro rfl
      exact ⟨mem, below⟩
    · rintro ⟨ht, least⟩
      exact Tag.le_antisymm (below t ht) (least _ mem)

theorem leastTag?_congr {ts us : List Tag} (same : ∀ t, t ∈ ts ↔ t ∈ us) :
    leastTag? ts = leastTag? us := by
  refine Option.ext fun t => ?_
  rw [leastTag?_eq_some_iff, leastTag?_eq_some_iff, same t]
  simp only [same]

/-! ## The tiers -/

/-- The tiers of a negotiation: the tag itself, the bare language, the least tag of the
language. -/
theorem negotiate_eq (requested : Tag) (ts : List Tag) :
    negotiate requested ts
      = if requested ∈ ts then .exact requested
        else if requested.languageOnly ∈ ts then .language requested.languageOnly
        else match leastTag? (ts.filter fun t => t.sameLanguage requested) with
          | some t => .language t
          | none => .source := by
  unfold negotiate
  rw [relatives?_eq]
  by_cases here : requested ∈ ts
  · rw [if_pos here, if_pos here]
  · rw [if_neg here, if_neg here]
    cases found : (ts.filter fun t => t.sameLanguage requested).find? Tag.isLanguageOnly with
    | some bare =>
      obtain ⟨mem, same⟩ := List.mem_filter.mp (List.mem_of_find?_eq_some found)
      have is_bare : bare = requested.languageOnly :=
        (Tag.eq_languageOnly_iff bare requested).mpr ⟨List.find?_some found, same⟩
      simp only [found]
      rw [← is_bare, if_pos mem]
    | none =>
      have absent : requested.languageOnly ∉ ts := by
        intro mem
        obtain ⟨bare, same⟩ := (Tag.eq_languageOnly_iff _ requested).mp rfl
        exact List.find?_eq_none.mp found _ (List.mem_filter.mpr ⟨mem, same⟩) bare
      simp only [found]
      exact (if_neg absent).symm

section

variable (requested t : Tag) (ts : List Tag)

theorem mem_relatives_iff :
    (t ∈ ts.filter fun t => t.sameLanguage requested) ↔
      t ∈ ts ∧ t.language = requested.language := by
  rw [List.mem_filter, Tag.sameLanguage, beq_iff_eq]

/-- The least tag of a language, in the order of bytes. -/
theorem leastTag?_relatives_eq_some_iff :
    leastTag? (ts.filter fun t => t.sameLanguage requested) = some t ↔
      t ∈ ts ∧ t.language = requested.language ∧
        ∀ u ∈ ts, u.language = requested.language → bytesOf t.text ≤ bytesOf u.text := by
  rw [leastTag?_eq_some_iff, mem_relatives_iff, and_assoc]
  simp only [mem_relatives_iff, Tag.isLE_compare_iff, and_imp]

theorem leastTag?_relatives_eq_none_iff :
    leastTag? (ts.filter fun t => t.sameLanguage requested) = none ↔
      ∀ t ∈ ts, t.language ≠ requested.language := by
  have empty : ∀ us : List Tag, leastTag? us = none ↔ us = [] := by
    intro us
    cases us <;> simp [leastTag?]
  rw [empty, List.filter_eq_nil_iff]
  simp only [Tag.sameLanguage, beq_iff_eq, ne_eq]

end

/-- There is no need to look for the bare language: where it is available, it is the least tag. -/
theorem negotiate_eq_least (requested : Tag) (ts : List Tag) :
    negotiate requested ts
      = if requested ∈ ts then .exact requested
        else match leastTag? (ts.filter fun t => t.sameLanguage requested) with
          | some t => .language t
          | none => .source := by
  rw [negotiate_eq]
  by_cases bare : requested.languageOnly ∈ ts
  · have least : leastTag? (ts.filter fun t => t.sameLanguage requested)
        = some requested.languageOnly := by
      refine (leastTag?_relatives_eq_some_iff _ _ _).mpr ⟨bare, rfl, fun u _ same => ?_⟩
      exact Tag.languageOnly_le same.symm
    rw [if_pos bare, least]
  · rw [if_neg bare]

/-- **Only the tags of the requested language matter**, and neither their order nor how often
they come up. -/
theorem negotiate_of_relatives {ts us : List Tag} {requested : Tag}
    (same : ∀ t : Tag, t.language = requested.language → (t ∈ ts ↔ t ∈ us)) :
    negotiate requested ts = negotiate requested us := by
  have least : leastTag? (ts.filter fun t => t.sameLanguage requested)
      = leastTag? (us.filter fun t => t.sameLanguage requested) := by
    refine leastTag?_congr fun t => ?_
    rw [mem_relatives_iff, mem_relatives_iff]
    exact and_congr_left fun relative => same t relative
  rw [negotiate_eq_least, negotiate_eq_least, least]
  simp only [same requested rfl]

/-- Lists with the same tags lead to the same outcome. -/
theorem negotiate_congr {ts us : List Tag} (requested : Tag) (same : ∀ t, t ∈ ts ↔ t ∈ us) :
    negotiate requested ts = negotiate requested us :=
  negotiate_of_relatives fun t _ => same t

theorem Match.tag?_eq_none_iff (found : Match) : found.tag? = none ↔ found = .source := by
  cases found <;> simp [Match.tag?]

/-! ## The outcome -/

/-- The outcome of a request, by the tags that are available. -/
inductive Settles (requested : Tag) (available : List Tag) : Match → Prop where
  /-- The requested tag itself. -/
  | exact (here : requested ∈ available) : Settles requested available (.exact requested)
  /-- Else the bare language. -/
  | bare (absent : requested ∉ available) (bare : requested.languageOnly ∈ available) :
      Settles requested available (.language requested.languageOnly)
  /-- Else the tag of the language that comes first in the order of bytes. -/
  | least {t : Tag} (absent : requested ∉ available)
      (notBare : requested.languageOnly ∉ available) (mem : t ∈ available)
      (relative : t.language = requested.language)
      (below : ∀ u ∈ available, u.language = requested.language →
        bytesOf t.text ≤ bytesOf u.text) :
      Settles requested available (.language t)
  /-- No tag of the language is available. -/
  | source (foreign : ∀ t ∈ available, t.language ≠ requested.language) :
      Settles requested available .source

theorem settles_negotiate (requested : Tag) (ts : List Tag) :
    Settles requested ts (negotiate requested ts) := by
  rw [negotiate_eq]
  by_cases here : requested ∈ ts
  · rw [if_pos here]
    exact .exact here
  rw [if_neg here]
  by_cases bare : requested.languageOnly ∈ ts
  · rw [if_pos bare]
    exact .bare here bare
  rw [if_neg bare]
  cases least : leastTag? (ts.filter fun t => t.sameLanguage requested) with
  | some t =>
    obtain ⟨mem, relative, below⟩ := (leastTag?_relatives_eq_some_iff _ _ _).mp least
    exact .least here bare mem relative below
  | none => exact .source ((leastTag?_relatives_eq_none_iff _ _).mp least)

/-- Whatever is chosen is available, and it is a tag of the requested language. -/
theorem Settles.mem_of_tag? {requested t : Tag} {ts : List Tag} {found : Match}
    (h : Settles requested ts found) (chosen : found.tag? = some t) :
    t ∈ ts ∧ t.language = requested.language := by
  cases h with
  | exact here =>
    cases chosen
    exact ⟨here, rfl⟩
  | bare _ bare =>
    cases chosen
    exact ⟨bare, rfl⟩
  | least _ _ mem relative =>
    cases chosen
    exact ⟨mem, relative⟩
  | source => cases chosen

/-- There is one outcome. -/
theorem Settles.unique {requested : Tag} {ts : List Tag} {found other : Match}
    (h : Settles requested ts found) (h' : Settles requested ts other) : found = other := by
  cases h with
  | exact here =>
    cases h' with
    | exact => rfl
    | bare absent => exact absurd here absent
    | least absent => exact absurd here absent
    | source foreign => exact absurd rfl (foreign requested here)
  | bare absent bare =>
    cases h' with
    | exact here => exact absurd here absent
    | bare => rfl
    | least _ notBare => exact absurd bare notBare
    | source foreign => exact absurd rfl (foreign requested.languageOnly bare)
  | least absent notBare mem relative below =>
    cases h' with
    | exact here => exact absurd here absent
    | bare _ bare => exact absurd bare notBare
    | least _ _ mem' relative' below' =>
      have le := (Tag.isLE_compare_iff _ _).mpr (below _ mem' relative')
      have ge := (Tag.isLE_compare_iff _ _).mpr (below' _ mem relative)
      rw [Tag.le_antisymm le ge]
    | source foreign => exact absurd relative (foreign _ mem)
  | source foreign =>
    cases h' with
    | exact here => exact absurd rfl (foreign requested here)
    | bare _ bare => exact absurd rfl (foreign requested.languageOnly bare)
    | least _ _ mem relative => exact absurd relative (foreign _ mem)
    | source => rfl

theorem mem_of_tag?_negotiate {requested : Tag} {ts : List Tag} {t : Tag}
    (chosen : (negotiate requested ts).tag? = some t) : t ∈ ts :=
  ((settles_negotiate requested ts).mem_of_tag? chosen).1

theorem language_of_tag?_negotiate {requested : Tag} {ts : List Tag} {t : Tag}
    (chosen : (negotiate requested ts).tag? = some t) : t.language = requested.language :=
  ((settles_negotiate requested ts).mem_of_tag? chosen).2

/-- **The tiers of a negotiation.** The outcome is the one that `Settles` describes, and it is the
same for all lists with the same tags of the requested language. The bare language is the least
of these tags, so the second tier is the least tag of the language wherever the first one fails.
A tag that is chosen is available, and asking for it by its own name leads to it. -/
theorem negotiate_settles (requested : Tag) (ts : List Tag) :
    (∀ found, negotiate requested ts = found ↔ Settles requested ts found) ∧
    (∀ us, (∀ t : Tag, t.language = requested.language → (t ∈ us ↔ t ∈ ts)) →
      negotiate requested us = negotiate requested ts) ∧
    (∀ t : Tag, t.language = requested.language →
      bytesOf requested.languageOnly.text ≤ bytesOf t.text) ∧
    (∀ t, negotiate requested ts = .language t ↔
      requested ∉ ts ∧ t ∈ ts ∧ t.language = requested.language ∧
        ∀ u ∈ ts, u.language = requested.language → bytesOf t.text ≤ bytesOf u.text) ∧
    ∀ t, (negotiate requested ts).tag? = some t → t ∈ ts ∧ negotiate t ts = .exact t := by
  refine ⟨fun found => ⟨?_, ?_⟩, fun us same => negotiate_of_relatives same,
    fun t same => Tag.languageOnly_le same.symm, fun t => ?_, fun t chosen => ?_⟩
  · rintro rfl
    exact settles_negotiate requested ts
  · exact (settles_negotiate requested ts).unique
  · rw [negotiate_eq_least]
    by_cases here : requested ∈ ts
    · simp [here]
    · rw [if_neg here, ← leastTag?_relatives_eq_some_iff]
      cases leastTag? (ts.filter fun t => t.sameLanguage requested) <;> simp [here]
  · have mem := mem_of_tag?_negotiate chosen
    rw [negotiate_eq, if_pos mem]
    exact ⟨mem, rfl⟩

end Phrasebook.Locale
