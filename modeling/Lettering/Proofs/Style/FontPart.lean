import Lettering.Proofs.KeyedList
import Lettering.Style.Cascade

/-!
# The font part of a style

The properties whose names start with `font` lead a life of their own in the
cascade. Laying rules over each other treats them by themselves
(`KeyedList.filterKeys_overlay`), and a font is read off them alone
(`Font.ofRules_fontPart`). So the font under any tags depends only on what the
rules of each tag say about fonts (`RuleTable.FontsAgree.font_eq`).
-/

namespace Lettering

/-- What rules say about fonts. -/
def Rules.fontPart (rules : Rules) : Rules := rules.filterKeys Font.isFontKey

/-- A font is read off the font part alone. -/
theorem Font.ofRules_fontPart (rules : Rules) :
    Font.ofRules rules.fontPart = Font.ofRules rules := by
  have hany : rules.fontPart.keys.any Font.isFontKey = rules.keys.any Font.isFontKey := by
    simp [Rules.fontPart, KeyedList.filterKeys, KeyedList.keys, List.any_map, List.any_filter,
      Function.comp_def]
  have hget (k : String) (hk : Font.isFontKey k) : rules.fontPart.get? k = rules.get? k :=
    KeyedList.get?_filterKeys Font.isFontKey rules hk
  simp only [Font.ofRules, hany, hget "fontStyle" (by decide), hget "fontWeight" (by decide),
    hget "fontSize" (by decide), hget "fontFamily" (by decide)]

namespace RuleTable

/-- The tables say the same about fonts, tag by tag; a tag without rules says
    nothing. -/
def FontsAgree (table table' : RuleTable) : Prop :=
  ∀ tag, (table'.rulesOf tag).fontPart = (table.rulesOf tag).fontPart

variable {table table' : RuleTable}

/-- Tables that say the same about single tags do so about tags within tags. -/
theorem FontsAgree.fontPart_eq (h : table.FontsAgree table') (context : List String) :
    (table'.resolve context).fontPart = (table.resolve context).fontPart := by
  suffices hfold : ∀ style style' : Rules, style'.fontPart = style.fontPart →
      (context.foldl (fun style tag => style.overlay (table'.rulesOf tag)) style').fontPart =
        (context.foldl (fun style tag => style.overlay (table.rulesOf tag)) style).fontPart from
    hfold _ _ (h baseTag)
  induction context with
  | nil => exact fun _ _ hs => hs
  | cons tag context ih =>
    intro style style' hs
    refine ih _ _ ?_
    have hover (m n : Rules) : Rules.fontPart (m.overlay n) = m.fontPart.overlay n.fontPart :=
      KeyedList.filterKeys_overlay Font.isFontKey m n
    rw [hover, hover, hs, h tag]

/-- Tables that say the same about fonts lead to the same font. -/
theorem FontsAgree.font_eq (h : table.FontsAgree table') (context : List String) :
    (table'.resolve context).split.font = (table.resolve context).split.font := by
  change Font.ofRules _ = Font.ofRules _
  rw [← Font.ofRules_fontPart, h.fontPart_eq, Font.ofRules_fontPart]

end RuleTable

end Lettering
