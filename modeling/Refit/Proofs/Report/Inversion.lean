/-
Reading a report undoes writing it.

A report lists items, each on a line of its own, among any blank lines and with
any line breaks.  `Lists` says so by the ways such a text can be put together,
and since joining at a break is one of them, what the lines of the text say
follows piece by piece (`said_of_lists`).
-/
import Refit.Proofs.Report.Joining

namespace Refit
namespace Report

open Text (isBlank isBreak)
open scoped Text

/-- A note at a line that a finding can have, with its number in digits of any script. -/
structure Item extends Note where
  line : Nat
  line_pos : 1 ≤ line := by decide
  digits_length : digits.length ≤ Number.digitLimit := by decide
  digits_line : Text.digitsValue digits = line := by decide

namespace Item

def finding (i : Item) : Finding := ⟨i.line, i.rule, i.message, i.line_pos⟩

theorem readLine_text (i : Item) : readLine i.text = .finding i.path i.finding := by
  have hdigits : Number.ofDigits i.digits = .ok i.line := by
    rw [Number.ofDigits, if_neg (Nat.not_lt.mpr i.digits_length), i.digits_line]
  have hline : (1 : Int) ≤ i.line := by
    have := i.line_pos
    omega
  have hfinding : Finding.of i.line i.rule i.message = .ok i.finding := by
    simp [Finding.of, hline, finding]
  rw [i.toNote.readLine_text]
  simp only [readRemark, hdigits, hfinding]

end Item

/-- The reports that list some items, in order and nothing else. -/
inductive Lists : List Item → Text → Prop
  | blank {w : Text} (blank : ∀ c ∈ w, isBlank c = true) (unbroken : ∀ c ∈ w, isBreak c = false) :
      Lists [] w
  | line (i : Item) : Lists [i] i.text
  | join {c : Char} {items items' : List Item} {a b : Text} (isBreak : isBreak c = true)
      (above : Lists items a) (below : Lists items' b) : Lists (items ++ items') (a ++ c :: b)

theorem said_of_lists {items : List Item} {report : Text} (h : Lists items report) :
    said report = items.map fun i => .finding i.path i.finding := by
  induction h with
  | @blank w blank unbroken =>
      by_cases hw : w = []
      · rw [hw]
        rfl
      · rw [said_of_line unbroken hw, readLine_of_blank blank]
        rfl
  | line i =>
      rw [said_of_line i.unbroken i.text_ne_nil, i.readLine_text]
      rfl
  | join isBreak _ _ above below => rw [said_append isBreak, above, below, List.map_append]

theorem legible_of_lists {items : List Item} {report : Text} (h : Lists items report) :
    Legible report := by
  rw [legible_iff, said_of_lists h]
  simp

theorem located_of_lists {items : List Item} {report : Text} (h : Lists items report) :
    located report = items.map fun i => (i.path, i.finding) := by
  rw [located_eq, said_of_lists h, List.filterMap_map]
  exact congrFun List.filterMap_eq_map items

/-- The findings of a report are those of the items it lists, and by path each
path has those of its items. -/
theorem findings_of_listed_items {items : List Item} {report : Text} (h : Lists items report) :
    (findings report).outcome = .ok (items.map Item.finding) ∧
      (findingsByFile report).outcome =
        .ok ((items.map fun i => i.path).eraseDups.map fun path =>
          (path, (items.filter fun i => i.path = path).map Item.finding)) := by
  have hlocated := located_of_lists h
  constructor
  · rw [outcome_findings, if_pos (legible_of_lists h), hlocated, List.map_map]
    rfl
  · have hunder : ∀ path, Data.Pairs.under (located report) path =
        (items.filter fun i => i.path = path).map Item.finding := by
      intro path
      rw [hlocated, Data.Pairs.under, List.filter_map, List.map_map]
      rfl
    rw [outcome_findingsByFile, if_pos (legible_of_lists h),
      Data.Pairs.tabulate_congr fun path _ => hunder path, hlocated, List.map_map]
    rfl

/-- The path has a colon in it, and the message reads like a finding of its own. -/
def shopItem : Item where
  path := "C:/shop/Shop.java"
  digits := "25"
  rule := "Line-Count"
  message := "see Till.java:9: Doc: missing"
  line := 25

/-- The path ends in a colon and a blank, and the number is written in other digits. -/
def tillItem : Item where
  path := "Till: "
  digits := "٠٧"
  rule := "Size"
  message := "12 lines"
  line := 7

def mixedReport : Text :=
  "C:/shop/Shop.java:25: Line-Count: see Till.java:9: Doc: missing\r\n \t\n" ++
    "Till: :٠٧: Size: 12 lines\x0bC:/shop/Shop.java:25: Line-Count: see Till.java:9: Doc: missing"

theorem findings_of_listed_mixed_items :
    Lists [shopItem, tillItem, shopItem] mixedReport ∧
      (findings mixedReport).outcome =
        .ok [⟨25, "Line-Count", "see Till.java:9: Doc: missing", by decide⟩,
          ⟨7, "Size", "12 lines", by decide⟩,
          ⟨25, "Line-Count", "see Till.java:9: Doc: missing", by decide⟩] ∧
      (findingsByFile mixedReport).outcome =
        .ok [("C:/shop/Shop.java", [⟨25, "Line-Count", "see Till.java:9: Doc: missing", by decide⟩,
            ⟨25, "Line-Count", "see Till.java:9: Doc: missing", by decide⟩]),
          ("Till: ", [⟨7, "Size", "12 lines", by decide⟩])] := by
  have hempty : Lists [] [] := .blank (by decide) (by decide)
  have hblank : Lists [] " \t".toList := .blank (by decide) (by decide)
  have hlast : Lists [tillItem, shopItem] (tillItem.text ++ '\x0b' :: shopItem.text) :=
    .join (by decide) (.line tillItem) (.line shopItem)
  have hlists : Lists [shopItem, tillItem, shopItem] mixedReport := by
    have h := Lists.join (c := '\r') (by decide) (.line shopItem)
      (.join (c := '\n') (by decide) hempty (.join (c := '\n') (by decide) hblank hlast))
    have htext : mixedReport = shopItem.text ++ '\r' :: ([] ++ '\n' :: (" \t".toList ++
        '\n' :: (tillItem.text ++ '\x0b' :: shopItem.text))) := by decide +kernel
    rw [htext]
    exact h
  obtain ⟨hfindings, hfiles⟩ := findings_of_listed_items hlists
  exact ⟨hlists, hfindings, hfiles.trans (by decide +kernel)⟩

end Report
end Refit
