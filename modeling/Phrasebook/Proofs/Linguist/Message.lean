import Phrasebook.Linguist.Catalog
import Phrasebook.Proofs.Markup.Text

/-!
# What a message element says

A message is read in one go, text after text. This module takes the reading apart: which fields
of the entry come from which parts of the element, and what the element has to be like for
every part to be readable.

- `HasText`, `MayHaveText`, `HasTranslation`: where the texts of a message stand.
- `Declares`: the words for a status.
- `Spells`: the entry that a message gives, field by field.
- `readMessage_eq_ok_iff`: reading a message yields the entry it spells.
- `Sound`, `exists_spells_iff`: the messages that spell an entry.
-/

namespace Phrasebook.Linguist

open Markup

/-! ## The parts of a message -/

/-- The first child with a name has this text. -/
def HasText (parent : Element) (name : String) (text : String) : Prop :=
  ∃ child, parent.child? name = some child ∧ child.text = .ok text

/-- The first child with a name has this text, or there is neither. -/
def MayHaveText (parent : Element) (name : String) : Option String → Prop
  | some text => HasText parent name text
  | none => parent.child? name = none

/-- The status that a `type` stands for, the status of a translation without a type being open. -/
inductive Declares (options : Options) : Option String → Status → Prop where
  | untyped : Declares options none options.untypedStatus
  | finished : Declares options (some "finished") .finished
  | unfinished : Declares options (some "unfinished") .unfinished
  | obsolete : Declares options (some "obsolete") .obsolete
  | vanished : Declares options (some "vanished") .obsolete

/-- The text and the status of a translation, which is empty and unfinished where it is missing. -/
def HasTranslation (options : Options) (message : Element) (text : String) (status : Status) :
    Prop :=
  (message.child? "translation" = none ∧ text = "" ∧ status = .unfinished) ∨
    ∃ translation, message.child? "translation" = some translation ∧
      (firstForm translation).text = .ok text ∧
      Declares options (translation.attribute? "type") status

/-- The hints where a message is used, in order. -/
def hints (message : Element) : List Element :=
  childrenNamed message "location"

/-- The fields of the entry are those that the message gives. The context and the places are not
settled by the message alone. -/
structure Spells (options : Options) (message : Element) (e : Entry) : Prop where
  source : HasText message "source" e.source
  translation : HasTranslation options message e.translation e.status
  oldSource : MayHaveText message "oldsource" e.oldSource
  comment : MayHaveText message "comment" e.comment
  extraComment : MayHaveText message "extracomment" e.extraComment
  translatorComment : MayHaveText message "translatorcomment" e.translatorComment
  id : e.id = message.attribute? "id"

/-! ## Reading the parts -/

theorem requiredText_eq_ok_iff (parent : Element) (parentName name text : String) :
    requiredText parent parentName name = .ok text ↔ HasText parent name text := by
  unfold requiredText HasText
  cases parent.child? name with
  | none => simp
  | some child => simp

theorem optionalText_eq_ok_iff (parent : Element) (name : String) (text : Option String) :
    optionalText parent name = .ok text ↔ MayHaveText parent name text := by
  unfold optionalText
  cases found : parent.child? name with
  | none => cases text <;> simp [MayHaveText, HasText, found]
  | some child =>
    show child.text.map some = .ok text ↔ _
    rw [map_eq_ok_iff]
    cases text <;> simp [MayHaveText, HasText, found]

theorem readStatus_eq_ok_iff (options : Options) (translation : Element) (status : Status) :
    readStatus options translation = .ok status ↔
      Declares options (translation.attribute? "type") status := by
  unfold readStatus
  constructor
  · intro read
    split at read <;> rename_i written <;> rw [written] <;> cases read
    · exact .untyped
    · exact .unfinished
    · exact .obsolete
    · exact .vanished
    · exact .finished
  · intro declared
    cases written : translation.attribute? "type" with
    | none =>
      rw [written] at declared
      cases declared
      rfl
    | some word =>
      rw [written] at declared
      cases declared <;> rfl

theorem readTranslation_eq_ok_iff (options : Options) (message : Element) (text : String)
    (status : Status) :
    readTranslation options message = .ok (text, status) ↔
      HasTranslation options message text status := by
  unfold readTranslation HasTranslation
  cases message.child? "translation" with
  | none => simp [eq_comm]
  | some translation =>
    constructor
    · intro read
      obtain ⟨text', form, read⟩ := bind_eq_ok_iff.mp read
      obtain ⟨status', declared, read⟩ := bind_eq_ok_iff.mp read
      cases read
      exact .inr ⟨translation, rfl, form, (readStatus_eq_ok_iff options _ status).mp declared⟩
    · rintro (⟨missing, -⟩ | ⟨translation', same, form, declared⟩)
      · cases missing
      · cases same
        exact bind_eq_ok_iff.mpr ⟨text, form, bind_eq_ok_iff.mpr
          ⟨status, (readStatus_eq_ok_iff options _ status).mpr declared, rfl⟩⟩

/-- **Reading a message** yields the entry that it spells, in the context at hand and at the
places that its hints stand for after the hints before it. -/
theorem readMessage_eq_ok_iff (options : Options) (context : String) (trail after : Trail)
    (message : Element) (e : Entry) :
    readMessage options context trail message = .ok (e, after) ↔
      e.context = context ∧ Spells options message e ∧
        trail.followAll (hints message) = .ok (e.locations, after) := by
  unfold readMessage
  constructor
  · intro read
    obtain ⟨source, hsource, read⟩ := bind_eq_ok_iff.mp read
    obtain ⟨⟨translation, status⟩, htranslation, read⟩ := bind_eq_ok_iff.mp read
    obtain ⟨oldSource, holdSource, read⟩ := bind_eq_ok_iff.mp read
    obtain ⟨comment, hcomment, read⟩ := bind_eq_ok_iff.mp read
    obtain ⟨extraComment, hextraComment, read⟩ := bind_eq_ok_iff.mp read
    obtain ⟨translatorComment, htranslatorComment, read⟩ := bind_eq_ok_iff.mp read
    obtain ⟨⟨locations, trail'⟩, hlocations, read⟩ := bind_eq_ok_iff.mp read
    cases read
    refine ⟨rfl, ?_, hlocations⟩
    exact {
      source := (requiredText_eq_ok_iff _ _ _ _).mp hsource
      translation := (readTranslation_eq_ok_iff _ _ _ _).mp htranslation
      oldSource := (optionalText_eq_ok_iff _ _ _).mp holdSource
      comment := (optionalText_eq_ok_iff _ _ _).mp hcomment
      extraComment := (optionalText_eq_ok_iff _ _ _).mp hextraComment
      translatorComment := (optionalText_eq_ok_iff _ _ _).mp htranslatorComment
      id := rfl }
  · rintro ⟨rfl, spelled, followed⟩
    obtain ⟨context, source, translation, status, oldSource, comment, extraComment,
      translatorComment, id, locations⟩ := e
    obtain rfl : id = message.attribute? "id" := spelled.id
    refine bind_eq_ok_iff.mpr ⟨source, (requiredText_eq_ok_iff _ _ _ _).mpr spelled.source, ?_⟩
    refine bind_eq_ok_iff.mpr ⟨(translation, status),
      (readTranslation_eq_ok_iff _ _ _ _).mpr spelled.translation, ?_⟩
    refine bind_eq_ok_iff.mpr ⟨oldSource,
      (optionalText_eq_ok_iff _ _ _).mpr spelled.oldSource, ?_⟩
    refine bind_eq_ok_iff.mpr ⟨comment, (optionalText_eq_ok_iff _ _ _).mpr spelled.comment, ?_⟩
    refine bind_eq_ok_iff.mpr ⟨extraComment,
      (optionalText_eq_ok_iff _ _ _).mpr spelled.extraComment, ?_⟩
    refine bind_eq_ok_iff.mpr ⟨translatorComment,
      (optionalText_eq_ok_iff _ _ _).mpr spelled.translatorComment, ?_⟩
    exact bind_eq_ok_iff.mpr ⟨(locations, after), followed, rfl⟩

/-! ## Messages that can be read -/

/-- The types that a translation can have, none being one of them. -/
def knownTypes : List (Option String) :=
  [none, some "unfinished", some "finished", some "obsolete", some "vanished"]

/-- The texts that a message may carry besides its source and its translation. -/
def noteNames : List String :=
  ["oldsource", "comment", "extracomment", "translatorcomment"]

/-- Every part of a message that is read is readable, its hints apart. -/
structure Sound (message : Element) : Prop where
  source : ∃ child, message.child? "source" = some child ∧ child.Decodable
  translation : ∀ translation, message.child? "translation" = some translation →
    (firstForm translation).Decodable ∧ translation.attribute? "type" ∈ knownTypes
  notes : ∀ name ∈ noteNames, ∀ child, message.child? name = some child → child.Decodable

theorem exists_hasText_iff (parent : Element) (name : String) :
    (∃ text, HasText parent name text) ↔
      ∃ child, parent.child? name = some child ∧ child.Decodable := by
  constructor
  · rintro ⟨text, child, found, read⟩
    exact ⟨child, found, child.text_ok_iff.mp ⟨text, read⟩⟩
  · rintro ⟨child, found, decodable⟩
    obtain ⟨text, read⟩ := child.text_ok_iff.mpr decodable
    exact ⟨text, child, found, read⟩

theorem exists_mayHaveText_iff (parent : Element) (name : String) :
    (∃ text, MayHaveText parent name text) ↔
      ∀ child, parent.child? name = some child → child.Decodable := by
  constructor
  · rintro ⟨text, read⟩ child found
    cases text with
    | none => rw [show parent.child? name = none from read] at found; cases found
    | some text =>
      obtain ⟨child', found', decodable⟩ := (exists_hasText_iff parent name).mp ⟨text, read⟩
      obtain rfl : child = child' := Option.some_inj.mp (found.symm.trans found')
      exact decodable
  · intro decodable
    cases found : parent.child? name with
    | none => exact ⟨none, found⟩
    | some child =>
      obtain ⟨text, read⟩ := child.text_ok_iff.mpr (decodable child found)
      exact ⟨some text, child, found, read⟩

theorem exists_declares_iff (options : Options) (written : Option String) :
    (∃ status, Declares options written status) ↔ written ∈ knownTypes := by
  constructor
  · rintro ⟨status, declared⟩
    cases declared <;> simp [knownTypes]
  · intro known
    simp only [knownTypes, List.mem_cons, List.not_mem_nil, or_false] at known
    rcases known with rfl | rfl | rfl | rfl | rfl
    · exact ⟨_, .untyped⟩
    · exact ⟨_, .unfinished⟩
    · exact ⟨_, .finished⟩
    · exact ⟨_, .obsolete⟩
    · exact ⟨_, .vanished⟩

theorem exists_hasTranslation_iff (options : Options) (message : Element) :
    (∃ text status, HasTranslation options message text status) ↔
      ∀ translation, message.child? "translation" = some translation →
        (firstForm translation).Decodable ∧ translation.attribute? "type" ∈ knownTypes := by
  constructor
  · rintro ⟨text, status, ⟨missing, -⟩ | ⟨translation', found', form, declared⟩⟩ translation found
    · rw [missing] at found
      cases found
    · obtain rfl : translation = translation' := Option.some_inj.mp (found.symm.trans found')
      exact ⟨(firstForm translation).text_ok_iff.mp ⟨text, form⟩,
        (exists_declares_iff options _).mp ⟨status, declared⟩⟩
  · intro sound
    cases found : message.child? "translation" with
    | none => exact ⟨"", .unfinished, .inl ⟨found, rfl, rfl⟩⟩
    | some translation =>
      obtain ⟨decodable, known⟩ := sound translation found
      obtain ⟨text, form⟩ := (firstForm translation).text_ok_iff.mpr decodable
      obtain ⟨status, declared⟩ := (exists_declares_iff options _).mpr known
      exact ⟨text, status, .inr ⟨translation, found, form, declared⟩⟩

/-- **The sound messages** are those that spell an entry, wherever they stand. -/
theorem exists_spells_iff (options : Options) (message : Element) (context : String)
    (locations : List Location) :
    (∃ e, e.context = context ∧ Spells options message e ∧ e.locations = locations) ↔
      Sound message := by
  constructor
  · rintro ⟨e, -, spelled, -⟩
    refine { source := ?_, translation := ?_, notes := ?_ }
    · exact (exists_hasText_iff message "source").mp ⟨_, spelled.source⟩
    · exact (exists_hasTranslation_iff options message).mp ⟨_, _, spelled.translation⟩
    · intro name listed
      refine (exists_mayHaveText_iff message name).mp ?_
      simp only [noteNames, List.mem_cons, List.not_mem_nil, or_false] at listed
      rcases listed with rfl | rfl | rfl | rfl
      · exact ⟨_, spelled.oldSource⟩
      · exact ⟨_, spelled.comment⟩
      · exact ⟨_, spelled.extraComment⟩
      · exact ⟨_, spelled.translatorComment⟩
  · intro sound
    -- the parts are read independently of each other, so one entry can take them all
    have note : ∀ name ∈ noteNames, ∃ text, MayHaveText message name text :=
      fun name listed => (exists_mayHaveText_iff message name).mpr (sound.notes name listed)
    obtain ⟨source, hsource⟩ := (exists_hasText_iff message "source").mpr sound.source
    obtain ⟨translation, status, htranslation⟩ :=
      (exists_hasTranslation_iff options message).mpr sound.translation
    obtain ⟨oldSource, holdSource⟩ := note "oldsource" (by decide)
    obtain ⟨comment, hcomment⟩ := note "comment" (by decide)
    obtain ⟨extraComment, hextraComment⟩ := note "extracomment" (by decide)
    obtain ⟨translatorComment, htranslatorComment⟩ := note "translatorcomment" (by decide)
    let e : Entry := {
      context, source, translation, status, oldSource, comment, extraComment, translatorComment,
      id := message.attribute? "id", locations }
    refine ⟨e, rfl, ?_, rfl⟩
    exact ⟨hsource, htranslation, holdSource, hcomment, hextraComment, htranslatorComment, rfl⟩

end Phrasebook.Linguist
