import Lettering.Proofs.KeyedList
import Lettering.Style.Cascade

/-!
# Layers of rules

The style under some tags comes about layer by layer: first the base rules, then
the rules of each tag. All that counts is what the layers say one after the other
(`RuleTable.entriesOf`), since laying rules over a style assigns their entries in
turn (`RuleTable.resolve_eq_ofList`). So a name stands where the first layer that
has it puts it, and has the value of the last one (`RuleTable.resolve_layers`).
-/

namespace Lettering

namespace RuleTable

/-- What the rules of the tags say, one tag after the other; a tag without rules
    says nothing. -/
def entriesOf (table : RuleTable) (tags : List String) : List (String × StyleValue) :=
  tags.flatMap fun tag => ((table.get? tag).map KeyedList.entries).getD []

variable (table : RuleTable)

theorem entries_rulesOf (tag : String) :
    (table.rulesOf tag).entries = ((table.get? tag).map KeyedList.entries).getD [] := by
  rw [rulesOf]
  cases table.get? tag <;> rfl

theorem entriesOf_cons (tag : String) (tags : List String) :
    table.entriesOf (tag :: tags) = (table.rulesOf tag).entries ++ table.entriesOf tags := by
  rw [entriesOf, List.flatMap_cons, entries_rulesOf]
  rfl

/-- Laying the rules of tags over a style assigns what they say. -/
theorem foldl_overlay (tags : List String) (style : Rules) :
    tags.foldl (fun style tag => style.overlay (table.rulesOf tag)) style =
      style.setAll (table.entriesOf tags) := by
  induction tags generalizing style with
  | nil => rfl
  | cons tag tags ih => rw [List.foldl_cons, ih, entriesOf_cons, KeyedList.setAll_append]; rfl

/-- The tags inside are laid over the style outside. -/
theorem resolve_append (outer inner : List String) :
    table.resolve (outer ++ inner) = (table.resolve outer).setAll (table.entriesOf inner) := by
  rw [resolve, List.foldl_append, foldl_overlay _ inner]
  rfl

/-- A style is what the layers assign one after the other, from nothing on. -/
theorem resolve_eq_ofList (context : List String) :
    table.resolve context = .ofList (table.entriesOf (baseTag :: context)) := by
  rw [resolve, foldl_overlay, entriesOf_cons, KeyedList.ofList, KeyedList.setAll_append]
  exact congrArg (KeyedList.setAll · _) (KeyedList.ofList_entries _).symm

/-- The base rules have a say in every style. -/
theorem mem_keys_resolve (context : List String) {e : String × StyleValue}
    (h : e ∈ (table.rulesOf baseTag).entries) : e.1 ∈ (table.resolve context).keys := by
  rw [resolve_eq_ofList, KeyedList.keys_ofList, List.mem_eraseDups, entriesOf_cons]
  exact List.mem_map_of_mem (List.mem_append_left _ h)

/-- The style under some tags has every name once that a layer assigns to, in the
    order of the first assignments, with the value of the last one. So tags further
    inside are laid over it, whatever they are. The base tag, as one of them, lays
    the base rules over it again: no name moves, and their values are back. -/
theorem resolve_layers (context : List String) :
    let written := table.entriesOf (baseTag :: context)
    let style := table.resolve context
    let base := table.rulesOf baseTag
    style.keys.Nodup ∧ style.keys = (written.map Prod.fst).eraseDups ∧
      (∀ name value, style.get? name = some value ↔
        ∃ before after, written = before ++ (name, value) :: after ∧ ∀ e ∈ after, e.1 ≠ name) ∧
      (∀ inner, table.resolve (context ++ inner) = style.setAll (table.entriesOf inner)) ∧
      (∀ inner, table.resolve (context ++ baseTag :: inner) =
        (style.overlay base).setAll (table.entriesOf inner)) ∧
      (style.overlay base).keys = style.keys ∧
      ∀ name, (style.overlay base).get? name = (base.get? name).or (style.get? name) := by
  intro written style base
  have hstyle : style = .ofList written := resolve_eq_ofList table context
  refine ⟨style.keys_nodup, ?_, fun name value => ?_, resolve_append table context,
    fun inner => ?_, ?_, fun name => style.get?_overlay base name⟩
  · rw [hstyle, KeyedList.keys_ofList]
  · rw [hstyle, KeyedList.get?_ofList_eq_some_iff]
  · rw [resolve_append, entriesOf_cons, KeyedList.setAll_append]
    rfl
  · exact KeyedList.keys_setAll_of_mem fun e he => mem_keys_resolve table context he

end RuleTable

end Lettering
