import Mathlib
import Phrasebook.Proofs.Report.Clean
import Phrasebook.Proofs.Text.Numeral

/-!
# Counts of a report

Some counts of a report are taken of the entries, others are sums and differences of those. This
module says that they fit together: what is subtracted is never the larger number, and what comes
out counts the entries that it speaks of.

- `countP_split`: entries of two kinds, counted together and one by one.
- `remarks_eq`: the remark on messages without a translation stands apart from all others.
- `counts_balance`: the counts of a report, and what is made of them.
-/

namespace Phrasebook.Report

open Phrasebook.Locale Text

/-! ## Kinds of entries -/

/-- The message is in use and there is a translation for it, finished or not. -/
def isTranslated (e : Entry) : Bool :=
  decide (e.status ≠ .obsolete ∧ e.translation ≠ "")

/-- The message is in use and there is no translation for it. -/
def isUntranslated (e : Entry) : Bool :=
  decide (e.status ≠ .obsolete ∧ e.translation = "")

section Kinds

variable (c : Catalog) {p q r : Entry → Bool}

/-- Entries that are of one kind or else of another can be counted kind by kind. -/
theorem countP_split (either : ∀ e, r e = true ↔ p e = true ∨ q e = true)
    (apart : ∀ e, p e = true → q e = false) :
    c.entries.countP r = c.entries.countP p + c.entries.countP q := by
  rw [← Array.countP_toList, ← Array.countP_toList, ← Array.countP_toList]
  induction c.entries.toList with
  | nil => rfl
  | cons e es ih =>
    rw [List.countP_cons, List.countP_cons, List.countP_cons, ih]
    by_cases first : p e = true
    · rw [if_pos ((either e).mpr (.inl first)), if_pos first, if_neg (by simp [apart e first])]
      omega
    · by_cases second : q e = true
      · rw [if_pos ((either e).mpr (.inr second)), if_neg first, if_pos second]
        omega
      · rw [if_neg (fun whole => ((either e).mp whole).elim first second), if_neg first,
          if_neg second]
        rfl

/-- The messages in use, with a finished translation or an unfinished one. -/
theorem total_eq : (ofCatalog c).total = c.entries.countP Entry.isLive := by
  have done := countP_split c (r := fun e => decide (e.status = .finished))
    (p := fun e => decide (e.status = .finished ∧ e.translation ≠ ""))
    (q := fun e => decide (e.status = .finished ∧ e.translation = ""))
    (fun e => by by_cases empty : e.translation = "" <;> simp [empty])
    (fun e => by by_cases empty : e.translation = "" <;> simp [empty])
  have used := countP_split c (r := Entry.isLive) (p := fun e => decide (e.status = .finished))
    (q := fun e => decide (e.status = .unfinished))
    (fun e => by unfold Entry.isLive; cases e.status <;> simp)
    (fun e => by cases e.status <;> simp)
  rw [used, done]
  rfl

/-- All messages, in use or not. -/
theorem size_eq : c.size = (ofCatalog c).total + (ofCatalog c).stats.obsolete := by
  have all := countP_split c (r := fun _ => true) (p := Entry.isLive)
    (q := fun e => decide (e.status = .obsolete))
    (fun e => by unfold Entry.isLive; cases e.status <;> simp)
    (fun e => by unfold Entry.isLive; cases e.status <;> simp)
  rw [total_eq]
  rw [Array.countP_true] at all
  exact all

/-- The messages in use that have a translation of some kind. -/
theorem generated_eq : (ofCatalog c).generated = c.entries.countP isTranslated := by
  rw [countP_split c (r := isTranslated)
    (p := fun e => decide (e.status = .finished ∧ e.translation ≠ "")) (q := isDraft)
    (fun e => by unfold isTranslated isDraft; cases e.status <;> simp)
    (fun e => by unfold isDraft; cases e.status <;> simp)]
  rfl

/-- A message in use has a translation or it has none. -/
theorem total_eq_generated_add :
    (ofCatalog c).total = (ofCatalog c).generated + c.entries.countP isUntranslated := by
  rw [total_eq, generated_eq]
  unfold Entry.isLive isTranslated isUntranslated
  refine countP_split c (fun e => ?_) (fun e => ?_) <;>
    by_cases empty : e.translation = "" <;> simp [empty]

theorem unfinishedDrafts_le : (ofCatalog c).unfinishedDrafts ≤ (ofCatalog c).stats.unfinished := by
  refine Array.countP_mono_left fun e _ draft => ?_
  exact decide_eq_true (of_decide_eq_true draft).1

end Kinds

/-! ## The remark on messages without a translation -/

/-- The remark that so many messages in use have no translation. -/
def ignoredText (n : Nat) : String :=
  "Ignored " ++ toString n ++ " untranslated source text(s)"

theorem ignoredText_injective {m n : Nat} (same : ignoredText m = ignoredText n) : m = n := by
  unfold ignoredText at same
  rw [String.append_left_inj, String.append_right_inj] at same
  exact Nat.repr_injective same

/-- The remark comes first if it is made, and no other one begins like it. -/
theorem remarks_eq (r : Report) :
    ∃ others, r.remarks
        = (if 0 < r.untranslated then [ignoredText r.untranslated] else []) ++ others ∧
      ∀ remark ∈ others, ∃ first rest, remark.toList = first :: rest ∧ first ≠ 'I' := by
  simp only [remarks, List.append_assoc]
  refine ⟨_, rfl, fun remark mem => ?_⟩
  rw [List.mem_append, List.mem_append, List.mem_append] at mem
  rcases mem with kept | merged | duplicate | mismatch
  · split at kept
    · rw [List.mem_singleton] at kept
      simp [kept]
    · cases kept
  · obtain ⟨name, -, rfl⟩ := List.mem_map.mp merged
    simp
  · obtain ⟨key, -, rfl⟩ := List.mem_map.mp duplicate
    simp
  · obtain ⟨m, -, rfl⟩ := List.mem_map.mp mismatch
    simp

theorem ignoredText_mem_remarks (r : Report) (n : Nat) :
    ignoredText n ∈ r.remarks ↔ 0 < n ∧ n = r.untranslated := by
  obtain ⟨others, remarks, apart⟩ := r.remarks_eq
  have elsewhere : ignoredText n ∉ others := by
    intro mem
    obtain ⟨first, rest, spelled, other⟩ := apart _ mem
    rw [ignoredText, String.toList_append, String.toList_append] at spelled
    exact other (List.cons.inj spelled).1.symm
  rw [remarks, List.mem_append]
  by_cases any : 0 < r.untranslated
  · rw [if_pos any, List.mem_singleton]
    constructor
    · rintro (here | there)
      · have same := ignoredText_injective here
        exact ⟨same ▸ any, same⟩
      · exact absurd there elsewhere
    · rintro ⟨-, rfl⟩
      exact .inl rfl
  · rw [if_neg any]
    constructor
    · rintro (impossible | there)
      · cases impossible
      · exact absurd there elsewhere
    · rintro ⟨positive, rfl⟩
      exact absurd positive any

theorem toList_summary (r : Report) :
    r.summary.toList
      = r.headline.toList ++ r.remarks.flatMap fun remark => ("\n    " ++ remark).toList := by
  unfold summary
  generalize r.headline = written
  induction r.remarks generalizing written with
  | nil => simp
  | cons remark remarks ih =>
    rw [List.foldl_cons, ih, List.flatMap_cons]
    simp only [String.toList_append, List.append_assoc]

/-- A summary goes on with the remark behind its headline, or there are no such messages. -/
theorem ignored_prefix_summary (r : Report) :
    (r.headline ++ "\n    Ignored ").toList <+: r.summary.toList ↔ 0 < r.untranslated := by
  obtain ⟨others, remarks, apart⟩ := r.remarks_eq
  rw [toList_summary, String.toList_append, List.prefix_append_right_inj, remarks]
  by_cases any : 0 < r.untranslated
  · rw [if_pos any]
    refine iff_of_true ?_ any
    simp [ignoredText]
  · rw [if_neg any, List.nil_append]
    refine iff_of_false ?_ any
    cases others with
    | nil => simp
    | cons remark others =>
      obtain ⟨first, rest, spelled, other⟩ := apart remark List.mem_cons_self
      simp [spelled, other.symm]

/-! ## The main result -/

/-- **The counts of a report fit together.** Every entry is counted once, by its status and, if it
is finished, by whether it has a translation. Drafts are among the unfinished entries. The messages
generated are those in use that have a translation, which are no more than there are in use, and
what is left of the latter are those without one. The summary remarks on these right behind its
headline if there are any, and never otherwise. The share of finished messages is a quotient only
where messages are in use, and no more than these are finished. -/
theorem counts_balance (c : Catalog) :
    let r := ofCatalog c
    r.stats.finished + r.stats.emptyFinished + r.stats.unfinished + r.stats.obsolete = c.size ∧
    r.unfinishedDrafts ≤ r.stats.unfinished ∧
    r.generated ≤ r.total ∧ r.generated + r.untranslated = r.total ∧
    r.generated = c.entries.countP isTranslated ∧
    r.untranslated = c.entries.countP isUntranslated ∧
    (∀ n, ignoredText n ∈ r.remarks ↔ 0 < n ∧ n = r.untranslated) ∧
    ((r.headline ++ "\n    Ignored ").toList <+: r.summary.toList ↔ 0 < r.untranslated) ∧
    r.stats.finished ≤ r.total ∧
    ((r.total = 0 ∧ r.percentTranslated = 0.0) ∨
      (0 < r.total ∧
        r.percentTranslated = r.stats.finished.toFloat * 100.0 / r.total.toFloat)) := by
  intro r
  have split : r.total = r.generated + c.entries.countP isUntranslated := total_eq_generated_add c
  have bound : r.generated ≤ r.total := by omega
  refine ⟨(size_eq c).symm, unfinishedDrafts_le c, bound, Nat.add_sub_cancel' bound,
    generated_eq c, ?_, ignoredText_mem_remarks r, ignored_prefix_summary r, ?_, ?_⟩
  · show r.total - r.generated = _
    omega
  · exact (Nat.le_add_right _ _).trans bound
  · rcases Nat.eq_zero_or_pos r.total with none | positive
    · exact .inl ⟨none, if_pos none⟩
    · exact .inr ⟨positive, if_neg (Nat.ne_of_gt positive)⟩

end Phrasebook.Report
