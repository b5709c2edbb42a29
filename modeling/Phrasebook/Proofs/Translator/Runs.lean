import Phrasebook.Proofs.Chain
import Phrasebook.Proofs.Locale.Negotiation
import Phrasebook.Translator

/-!
# Runs of a translator

A program switches languages, installs catalogs and shows texts in any order, and the supplier
behind its translator may answer each request as it likes: the tags it lists may change, a
request may fail, a catalog that was listed a moment ago may be gone. The supplier is modelled as
an adversary with a state `σ` of its own, about which nothing is known; its state decides each
answer and changes with it.

- `Call`, `Reply`, `serve`, `run`: what is asked of a translator, and what comes back.
- `ServeSpec`: what one call may do, case by case.
- `lastMade`: the catalog of the last call that succeeded in changing the language.
- `serve_spec`: each call is one of those cases (the step lemma).
- `active_run`: after a run the active catalog is the one of `lastMade` (the run lemma).
- `run_spec`: both together, for every run against every supplier.
-/

namespace Phrasebook

open Phrasebook.Locale

/-! ## Suppliers with a state -/

namespace Supplier

variable {σ : Type}

/-- The tags that a supplier lists in a state, and its state afterwards. -/
def askAvailable (s : Supplier (StateM σ)) (w : σ) : Except SupplyFault (List Tag) × σ :=
  s.available.run.run w

/-- The catalog that a supplier gives for a tag in a state, and its state afterwards. -/
def askLoad (s : Supplier (StateM σ)) (tag : Tag) (w : σ) : Except SupplyFault Catalog × σ :=
  (s.load tag).run.run w

end Supplier

namespace Translator

/-! ## Calls -/

/-- What can be asked of a translator. -/
inductive Call where
  | switchLanguage (requested : Tag)
  | install (catalog : Catalog)
  | tr (context source : String)
  | trArgs (context source : String) (arguments : List String)

/-- What comes back. -/
inductive Reply where
  /-- The tier and the tag of a switch, or why it failed. -/
  | switched (result : Except SupplyFault Match)
  /-- The catalog that was active before an installation. -/
  | replaced (catalog : Catalog)
  /-- A text to show. -/
  | text (shown : String)

/-- A call with its reply and the catalog that is active afterwards. -/
structure Moment where
  call : Call
  reply : Reply
  active : Catalog

section

variable {m : Type → Type} [Monad m]

/-- Answers a call. -/
def serve (t : Translator m) : Call → m (Reply × Translator m)
  | .switchLanguage requested => do
    let (result, t') ← t.switchLanguage requested
    return (.switched result, t')
  | .install catalog => return (.replaced (t.install catalog).1, (t.install catalog).2)
  | .tr context source => return (.text (t.tr context source), t)
  | .trArgs context source arguments =>
    return (.text (t.trArgs context source arguments), t)

/-- Answers calls one after the other. -/
def run (t : Translator m) : List Call → m (List Moment × Translator m)
  | [] => return ([], t)
  | call :: calls => do
    let (reply, t') ← t.serve call
    let (moments, last) ← t'.run calls
    return (⟨call, reply, t'.active⟩ :: moments, last)

end

/-- The catalog that a call made active, if it succeeded in that. A switch that failed and a text
that was shown have made nothing active. -/
def Moment.made? (m : Moment) : Option Catalog :=
  match m.reply with
  | .switched (.ok _) => some m.active
  | .switched (.error _) => none
  | .replaced _ => some m.active
  | .text _ => none

/-- The catalog that the last successful call made active; before any, messages are shown as they
were written. -/
def lastMade (moments : List Moment) : Catalog :=
  (moments.filterMap Moment.made?).getLast?.getD Catalog.sourceOnly

/-! ## One call -/

variable {σ : Type}

/-- What a call may do when the catalog `before` is active and the supplier is in the state `w`:
the reply, and the catalog that is active afterwards. -/
inductive ServeSpec (s : Supplier (StateM σ)) (before : Catalog) (w : σ) :
    Call → Reply → Catalog → Prop where
  /-- The tag chosen from this call's listing was loaded in this call. -/
  | loaded {requested tag : Tag} {tags : List Tag} {catalog : Catalog} {w₁ w₂ : σ}
      (listed : s.askAvailable w = (.ok tags, w₁))
      (chosen : (negotiate requested tags).tag? = some tag)
      (given : s.askLoad tag w₁ = (.ok catalog, w₂)) :
      ServeSpec s before w (.switchLanguage requested)
        (.switched (.ok (negotiate requested tags))) catalog
  /-- No listed tag fits. -/
  | unmatched {requested : Tag} {tags : List Tag} {w₁ : σ}
      (listed : s.askAvailable w = (.ok tags, w₁))
      (chosen : negotiate requested tags = .source) :
      ServeSpec s before w (.switchLanguage requested) (.switched (.ok .source))
        Catalog.sourceOnly
  /-- The supplier did not list its tags. -/
  | unlisted {requested : Tag} {fault : SupplyFault} {w₁ : σ}
      (refused : s.askAvailable w = (.error fault, w₁)) :
      ServeSpec s before w (.switchLanguage requested) (.switched (.error fault)) before
  /-- The supplier did not give the catalog that was chosen. -/
  | unloaded {requested tag : Tag} {tags : List Tag} {fault : SupplyFault} {w₁ w₂ : σ}
      (listed : s.askAvailable w = (.ok tags, w₁))
      (chosen : (negotiate requested tags).tag? = some tag)
      (refused : s.askLoad tag w₁ = (.error fault, w₂)) :
      ServeSpec s before w (.switchLanguage requested) (.switched (.error fault)) before
  | installed {catalog : Catalog} :
      ServeSpec s before w (.install catalog) (.replaced before) catalog
  | shown {context source : String} :
      ServeSpec s before w (.tr context source) (.text (before.resolve context source)) before
  | filled {context source : String} {arguments : List String} :
      ServeSpec s before w (.trArgs context source arguments)
        (.text (Placeholder.fill (before.resolve context source) arguments)) before

/-- What is chosen and loaded for a request, from the supplier's answers. -/
theorem choose_run (s : Supplier (StateM σ)) (requested : Tag) (w : σ) :
    (choose s requested).run.run w
      = match s.askAvailable w with
        | (.error fault, w₁) => (.error fault, w₁)
        | (.ok tags, w₁) =>
          match (negotiate requested tags).tag? with
          | none => (.ok (negotiate requested tags, Catalog.sourceOnly), w₁)
          | some tag =>
            match s.askLoad tag w₁ with
            | (.error fault, w₂) => (.error fault, w₂)
            | (.ok catalog, w₂) => (.ok (negotiate requested tags, catalog), w₂) := by
  unfold choose Supplier.askAvailable Supplier.askLoad
  rw [ask_bind]
  rcases s.available.run.run w with ⟨fault | tags, w₁⟩
  · rfl
  · dsimp only
    cases (negotiate requested tags).tag? with
    | none => rfl
    | some tag =>
      dsimp only
      rw [ask_bind]
      rcases (s.load tag).run.run w₁ with ⟨fault | catalog, w₂⟩ <;> rfl

/-- The active catalog is replaced after everything else has succeeded. -/
theorem switchLanguage_run (t : Translator (StateM σ)) (requested : Tag) (w : σ) :
    (t.switchLanguage requested).run w
      = match (choose t.supplier requested).run.run w with
        | (.error fault, w₁) => ((.error fault, t), w₁)
        | (.ok (chosen, catalog), w₁) => ((.ok chosen, { t with active := catalog }), w₁) := by
  unfold switchLanguage
  rw [StateT.run_bind]
  show (match (choose t.supplier requested).run.run w with | (a, w₁) => _) = _
  rcases (choose t.supplier requested).run.run w with ⟨fault | ⟨chosen, catalog⟩, w₁⟩ <;> rfl

/-- **Every call is one of the cases**, and no call changes the supplier. -/
theorem serve_spec {t t' : Translator (StateM σ)} {call : Call} {reply : Reply} {w w' : σ}
    (h : (t.serve call).run w = ((reply, t'), w')) :
    t'.supplier = t.supplier ∧ ServeSpec t.supplier t.active w call reply t'.active := by
  cases call with
  | install catalog =>
    cases h
    exact ⟨rfl, .installed⟩
  | tr context source =>
    cases h
    exact ⟨rfl, .shown⟩
  | trArgs context source arguments =>
    cases h
    exact ⟨rfl, .filled⟩
  | switchLanguage requested =>
    -- the supplier is asked at most twice, and each answer can end the switch
    unfold serve at h
    rw [StateT.run_bind, switchLanguage_run, choose_run] at h
    rcases listed : t.supplier.askAvailable w with ⟨fault | tags, w₁⟩
    · rw [listed] at h
      cases h
      exact ⟨rfl, .unlisted listed⟩
    · rw [listed] at h
      cases chosen : (negotiate requested tags).tag? with
      | none =>
        have nothing := (Match.tag?_eq_none_iff _).mp chosen
        simp only [chosen] at h
        cases h
        rw [nothing]
        exact ⟨rfl, .unmatched listed nothing⟩
      | some tag =>
        simp only [chosen] at h
        rcases given : t.supplier.askLoad tag w₁ with ⟨fault | catalog, w₂⟩
        · rw [given] at h
          cases h
          exact ⟨rfl, .unloaded listed chosen given⟩
        · rw [given] at h
          cases h
          exact ⟨rfl, .loaded listed chosen given⟩

/-- A call that makes no catalog active leaves the active one in place. -/
theorem ServeSpec.active_eq {s : Supplier (StateM σ)} {before after : Catalog} {w : σ}
    {call : Call} {reply : Reply} (h : ServeSpec s before w call reply after) :
    after = (Moment.made? ⟨call, reply, after⟩).getD before := by
  cases h <;> rfl

/-! ## Runs -/

theorem lastMade_append (moments later : List Moment) :
    lastMade (moments ++ later)
      = (later.filterMap Moment.made?).getLast?.getD (lastMade moments) := by
  unfold lastMade
  rw [List.filterMap_append, List.getLast?_append]
  cases (later.filterMap Moment.made?).getLast? <;> rfl

theorem run_cons (t : Translator (StateM σ)) (call : Call) (calls : List Call) (w : σ) :
    (t.run (call :: calls)).run w
      = match (t.serve call).run w with
        | ((reply, t'), w₁) =>
          match (t'.run calls).run w₁ with
          | ((moments, last), w₂) => ((⟨call, reply, t'.active⟩ :: moments, last), w₂) :=
  rfl

/-- A longer run is a run and another one from where it ended. -/
theorem run_append (t : Translator (StateM σ)) (calls later : List Call) (w : σ) :
    (t.run (calls ++ later)).run w
      = match (t.run calls).run w with
        | ((past, mid), w₁) =>
          match (mid.run later).run w₁ with
          | ((moments, last), w₂) => ((past ++ moments, last), w₂) := by
  induction calls generalizing t w with
  | nil => rfl
  | cons call calls ih =>
    rw [List.cons_append, run_cons, run_cons]
    rcases (t.serve call).run w with ⟨⟨reply, t'⟩, w₁⟩
    dsimp only
    rw [ih]
    rfl

/-- A run keeps the supplier, and the active catalog at its end is the last one that a call made
active, or the one from before the run. -/
theorem active_run {t last : Translator (StateM σ)} {calls : List Call}
    {moments : List Moment} {w w' : σ}
    (h : (t.run calls).run w = ((moments, last), w')) :
    last.supplier = t.supplier ∧
      last.active = (moments.filterMap Moment.made?).getLast?.getD t.active := by
  induction calls generalizing t w moments with
  | nil =>
    cases h
    exact ⟨rfl, rfl⟩
  | cons call calls ih =>
    rw [run_cons] at h
    rcases first : (t.serve call).run w with ⟨⟨reply, t'⟩, w₁⟩
    rcases rest : (t'.run calls).run w₁ with ⟨⟨others, last'⟩, w₂⟩
    simp only [first, rest] at h
    cases h
    obtain ⟨kept, spec⟩ := serve_spec first
    obtain ⟨kept', active⟩ := ih rest
    refine ⟨kept'.trans kept, ?_⟩
    -- what the first call made active counts if no later call made anything active
    have now := spec.active_eq
    rw [active, List.filterMap_cons]
    cases made : Moment.made? ⟨call, reply, t'.active⟩ with
    | none =>
      rw [made] at now
      rw [now]
      rfl
    | some catalog =>
      rw [made] at now
      rw [List.getLast?_cons, now]
      rfl

/-- **What a translator shows is decided by the last success.** Take any run against any supplier
and the call that comes next in it. Before the call the catalog of the last successful switch or
installation is active, or the one that shows messages as they were written if there was none.
The call is one of the cases of `ServeSpec`: in particular a switch activates the catalog that
was loaded in this very call for the tag chosen from this very listing, and a switch that fails
leaves the translator as it was. All texts shown afterwards come from the catalog that is then
active. -/
theorem run_spec (s : Supplier (StateM σ)) (w : σ) (calls : List Call) (call : Call) :
    match ((start s).run calls).run w with
    | ((past, t), w₁) =>
      match (t.serve call).run w₁ with
      | ((reply, t'), w₂) =>
        ((start s).run (calls ++ [call])).run w = ((past ++ [⟨call, reply, t'.active⟩], t'), w₂) ∧
        t.active = lastMade past ∧
        ServeSpec s (lastMade past) w₁ call reply t'.active ∧
        t'.active = lastMade (past ++ [⟨call, reply, t'.active⟩]) ∧
        (∀ fault, reply = .switched (.error fault) → t' = t) ∧
        ∀ context source arguments,
          t'.tr context source = t'.active.resolve context source ∧
          t'.trArgs context source arguments
            = Placeholder.fill (t'.active.resolve context source) arguments := by
  rcases before : ((start s).run calls).run w with ⟨⟨past, t⟩, w₁⟩
  dsimp only
  rcases now : (t.serve call).run w₁ with ⟨⟨reply, t'⟩, w₂⟩
  obtain ⟨supplier, active⟩ := active_run before
  obtain ⟨supplier', spec⟩ := serve_spec now
  have active_past : t.active = lastMade past := active
  refine ⟨?_, active_past, ?_, ?_, ?_, fun _ _ _ => ⟨rfl, rfl⟩⟩
  · rw [run_append, before]
    dsimp only
    rw [run_cons, now]
    rfl
  · rw [← active_past, show s = t.supplier from supplier.symm]
    exact spec
  · rw [lastMade_append, ← active_past]
    have now := spec.active_eq
    cases made : Moment.made? ⟨call, reply, t'.active⟩ with
    | none =>
      rw [made] at now
      rw [List.filterMap_cons_none made]
      exact now
    | some catalog =>
      rw [made] at now
      rw [List.filterMap_cons_some made]
      exact now
  · rintro fault rfl
    have same : t'.active = t.active := spec.active_eq
    obtain ⟨_, _⟩ := t
    obtain ⟨_, _⟩ := t'
    exact congr (congrArg Translator.mk supplier') same

end Translator

end Phrasebook
