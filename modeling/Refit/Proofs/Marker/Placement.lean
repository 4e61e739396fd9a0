/-
Where the entries of a map end up.

Going down the pairs of a text, an entry is placed at the first pair of its name.
A later pair of that name finds it used up, and an entry that no pair asks for is
added at the end.  So the entries that are placed and those that are added make up
the map, each entry once (`process_places_every_entry_once`).
-/
import Mathlib.Data.List.Nodup
import Refit.Proofs.Marker.Extras
import Refit.Proofs.Marker.Gaps

namespace Refit
namespace Marker

open Text

/-! ## What takes the place of the pairs -/

/-- The entries that are placed at some pairs, and the texts that stand for the pairs
afterwards.  `seen` are the names of the pairs before them. -/
inductive Fills (map : Data.Pairs Text Text) :
    List Text → List Pair → Data.Pairs Text Text → List Text → Prop
  | done (seen : List Text) : Fills map seen [] [] []
  | place {seen pieces : List Text} {p : Pair} {ps : List Pair} {name body : Text}
      {placed : Data.Pairs Text Text} (named : enclosedName p.region (some p.id) = some name)
      (first : name ∉ seen) (entry : (name, body) ∈ map)
      (rest : Fills map (seen ++ [name]) ps placed pieces) :
      Fills map seen (p :: ps) ((name, body) :: placed)
        (("// <start-replaced:" ++ p.id ++ ">" ++ "\n" ++ body ++ "\n" ++
          ("// <end-replaced:" ++ p.id ++ ">")) :: pieces)
  | again {seen pieces : List Text} {p : Pair} {ps : List Pair} {name : Text}
      {placed : Data.Pairs Text Text} (named : enclosedName p.region (some p.id) = some name)
      (before : name ∈ seen) (known : name ∈ map.keys)
      (rest : Fills map (seen ++ [name]) ps placed pieces) :
      Fills map seen (p :: ps) placed
        (("// <removed-method: " ++ name ++ " from marker " ++ p.id ++
          ">\n// Original method was removed as " ++
            "its refactored implementation was placed at an earlier marker") :: pieces)
  | unmatched {seen pieces : List Text} {p : Pair} {ps : List Pair} {name : Text}
      {placed : Data.Pairs Text Text} (named : enclosedName p.region (some p.id) = some name)
      (unknown : name ∉ map.keys) (rest : Fills map (seen ++ [name]) ps placed pieces) :
      Fills map seen (p :: ps) placed
        (("// <removed-method: " ++ name ++ " from marker " ++ p.id ++
          ">\n// Original method was removed as " ++
            "no matching refactored implementation was found") :: pieces)

section Run

variable {map : Data.Pairs Text Text} {seen used : List Text} {hs : List (Hit Pair)}

theorem enclosedName_of_ne_nil {p : Pair} (h : p.id ≠ []) :
    enclosedName p.region (some p.id) = some (pairName p) := by
  obtain ⟨id, region⟩ := p
  have hsome : (enclosedName region (some id)).isSome = true := by
    cases id with
    | nil => exact absurd rfl h
    | cons c cs =>
        rw [enclosedName]
        split
        · rfl
        · cases firstDeclared? region <;> rfl
  obtain ⟨name, hname⟩ := Option.isSome_iff_exists.mp hsome
  rw [pairName, hname, Option.getD_some]

theorem exists_fills_resolvePairs (hused : Tracks map seen used)
    (hids : ∀ hit ∈ hs, hit.value.id ≠ []) :
    ∃ placed, Fills map seen (hs.map Hit.value) placed
      ((resolvePairs map used hs).map Resolved.text) := by
  induction hs generalizing seen used with
  | nil => exact ⟨[], .done seen⟩
  | cons hit hs ih =>
      rw [List.forall_mem_cons] at hids
      obtain ⟨placed, hrest⟩ := ih (hused.placing hit.value) hids.2
      have hname := enclosedName_of_ne_nil hids.1
      rw [resolvePairs_cons, List.map_cons, List.map_cons, hused.choose_eq]
      cases hget : map.get? (pairName hit.value) with
      | none =>
          have hkey : pairName hit.value ∉ map.keys := by
            rw [← Data.Pairs.hasKey_iff, Data.Pairs.hasKey, hget]
            decide
          exact ⟨placed, .unmatched hname hkey hrest⟩
      | some body =>
          have hentry : (pairName hit.value, body) ∈ map := Data.Pairs.mem_of_get? hget
          by_cases hseen : pairName hit.value ∈ seen
          · simp only [if_pos hseen]
            exact ⟨placed, .again hname hseen (List.mem_map_of_mem hentry) hrest⟩
          · simp only [if_neg hseen]
            exact ⟨_ :: placed, .place hname hseen hentry hrest⟩

end Run

/-! ## Each entry once -/

/-- The entries whose name no pair has, in the order of the map. -/
def unclaimed (map : Data.Pairs Text Text) (ps : List Pair) : Data.Pairs Text Text :=
  map.filter fun e => ps.all fun p => enclosedName p.region (some p.id) != some e.1

section Once

variable {map : Data.Pairs Text Text} {seen : List Text} {name : Text}

theorem mem_extras {e : Text × Text} : e ∈ extras map seen ↔ e ∈ map ∧ e.1 ∉ seen := by
  rw [extras, List.mem_filter, Bool.not_eq_true', ← Bool.not_eq_true, List.contains_iff_mem]

theorem extras_congr {seen' : List Text} (h : ∀ e ∈ map, e.1 ∈ seen ↔ e.1 ∈ seen') :
    extras map seen = extras map seen' := by
  refine List.filter_congr fun e he => ?_
  rw [Bool.eq_iff_iff]
  simp only [Bool.not_eq_true', ← Bool.not_eq_true, List.contains_iff_mem, h e he]

theorem nodup_extras (hkeys : map.keys.Nodup) : (extras map seen).Nodup :=
  (List.Nodup.of_map Prod.fst hkeys).filter _

theorem cons_extras_perm (hkeys : map.keys.Nodup) {body : Text} (hname : name ∉ seen)
    (hentry : (name, body) ∈ map) :
    ((name, body) :: extras map (seen ++ [name])).Perm (extras map seen) := by
  have hnew : (name, body) ∉ extras map (seen ++ [name]) := fun h =>
    (mem_extras.mp h).2 (List.mem_append_right seen List.mem_cons_self)
  rw [List.perm_ext_iff_of_nodup (List.nodup_cons.mpr ⟨hnew, nodup_extras hkeys⟩)
    (nodup_extras hkeys)]
  intro e
  rw [List.mem_cons, mem_extras, mem_extras, List.mem_append, List.mem_singleton, not_or]
  constructor
  · rintro (rfl | ⟨he, hseen, -⟩)
    · exact ⟨hentry, hname⟩
    · exact ⟨he, hseen⟩
  · rintro ⟨he, hseen⟩
    by_cases hsame : e.1 = name
    · -- No other entry of the map has this name.
      have hget := Data.Pairs.get?_of_mem hkeys he
      rw [hsame, Data.Pairs.get?_of_mem hkeys hentry] at hget
      exact .inl (Prod.ext hsame (Option.some.inj hget).symm)
    · exact .inr ⟨he, hseen, hsame⟩

theorem unclaimed_extras_cons {p : Pair} {ps : List Pair}
    (hname : enclosedName p.region (some p.id) = some name) :
    unclaimed (extras map seen) (p :: ps) = unclaimed (extras map (seen ++ [name])) ps := by
  rw [unclaimed, unclaimed, extras, extras, List.filter_filter, List.filter_filter]
  refine List.filter_congr fun e _ => ?_
  rw [List.all_cons, hname, Bool.eq_iff_iff]
  simp only [Bool.and_eq_true, bne_iff_ne, Bool.not_eq_true', ← Bool.not_eq_true,
    List.contains_iff_mem, List.mem_append, List.mem_singleton, ne_eq, Option.some.injEq]
  grind

theorem Fills.placed_append_perm {ps : List Pair} {placed : Data.Pairs Text Text}
    {pieces : List Text} (h : Fills map seen ps placed pieces) (hkeys : map.keys.Nodup) :
    (placed ++ unclaimed (extras map seen) ps).Perm (extras map seen) := by
  induction h with
  | done seen =>
      have hall : unclaimed (extras map seen) [] = extras map seen :=
        List.filter_eq_self.mpr fun _ _ => rfl
      rw [hall]
      exact .refl _
  | place named first entry _ ih =>
      rw [unclaimed_extras_cons named, List.cons_append]
      exact (ih.cons _).trans (cons_extras_perm hkeys first entry)
  | @again seen _ _ _ name _ named before _ _ ih =>
      have hsame : extras map (seen ++ [name]) = extras map seen :=
        extras_congr fun e _ => by grind
      rw [unclaimed_extras_cons named, ← hsame]
      exact ih
  | @unmatched seen _ _ _ name _ named unknown _ ih =>
      have hsame : extras map (seen ++ [name]) = extras map seen := extras_congr fun e he => by
        have hne : e.1 ≠ name := fun heq => unknown (heq ▸ List.mem_map_of_mem he)
        rw [List.mem_append, List.mem_singleton, or_iff_left hne]
      rw [unclaimed_extras_cons named, ← hsame]
      exact ih

theorem Fills.unique {ps : List Pair} {placed placed' : Data.Pairs Text Text}
    {pieces pieces' : List Text} (h : Fills map seen ps placed pieces)
    (h' : Fills map seen ps placed' pieces') (hkeys : map.keys.Nodup) :
    placed = placed' ∧ pieces = pieces' := by
  induction h generalizing placed' pieces' with
  | done => cases h'; exact ⟨rfl, rfl⟩
  | place named first entry _ ih =>
      cases h' with
      | place named' _ entry' rest' =>
          obtain rfl := Option.some.inj (named.symm.trans named')
          obtain ⟨rfl, rfl⟩ := ih rest'
          have hbody := (Data.Pairs.get?_of_mem hkeys entry).symm.trans
            (Data.Pairs.get?_of_mem hkeys entry')
          obtain rfl := Option.some.inj hbody
          exact ⟨rfl, rfl⟩
      | again named' before' =>
          obtain rfl := Option.some.inj (named.symm.trans named')
          exact absurd before' first
      | unmatched named' unknown' =>
          obtain rfl := Option.some.inj (named.symm.trans named')
          exact absurd (List.mem_map_of_mem entry) unknown'
  | again named before known _ ih =>
      cases h' with
      | place named' first' =>
          obtain rfl := Option.some.inj (named.symm.trans named')
          exact absurd before first'
      | again named' _ _ rest' =>
          obtain rfl := Option.some.inj (named.symm.trans named')
          obtain ⟨rfl, rfl⟩ := ih rest'
          exact ⟨rfl, rfl⟩
      | unmatched named' unknown' =>
          obtain rfl := Option.some.inj (named.symm.trans named')
          exact absurd known unknown'
  | unmatched named unknown _ ih =>
      cases h' with
      | place named' _ entry' =>
          obtain rfl := Option.some.inj (named.symm.trans named')
          exact absurd (List.mem_map_of_mem entry') unknown
      | again named' _ known' =>
          obtain rfl := Option.some.inj (named.symm.trans named')
          exact absurd known' unknown
      | unmatched named' _ rest' =>
          obtain rfl := Option.some.inj (named.symm.trans named')
          obtain ⟨rfl, rfl⟩ := ih rest'
          exact ⟨rfl, rfl⟩

end Once

/-! ## The names that have been placed -/

section Placed

variable {map : Data.Pairs Text Text} {seen used : List Text} {hs : List (Hit Pair)}

theorem placedNames_cons (r : Resolved) (rs : List Resolved) :
    placedNames (r :: rs) =
      match r.resolution with
      | .placed _ => r.name :: placedNames rs
      | _ => placedNames rs := by
  rw [placedNames, List.filterMap_cons]
  cases r.resolution <;> rfl

theorem append_placedNames_resolvePairs (map : Data.Pairs Text Text) (used : List Text)
    (hit : Hit Pair) (hs : List (Hit Pair)) :
    used ++ placedNames (resolvePairs map used (hit :: hs)) =
      placing map used hit.value ++
        placedNames (resolvePairs map (placing map used hit.value) hs) := by
  rw [resolvePairs_cons, placedNames_cons, placing]
  cases choose map used (pairName hit.value) <;> simp

theorem tracks_resolvePairs (hused : Tracks map seen used) :
    Tracks map (seen ++ hs.map fun hit => pairName hit.value)
      (used ++ placedNames (resolvePairs map used hs)) := by
  induction hs generalizing seen used with
  | nil =>
      rw [resolvePairs]
      simpa [placedNames] using hused
  | cons hit hs ih =>
      have hnext := ih (hused.placing hit.value)
      rw [append_placedNames_resolvePairs, List.map_cons, List.append_cons]
      exact hnext

theorem mem_placedNames_resolved {text name : Text} :
    name ∈ placedNames (resolved map text) ↔
      (∃ hit ∈ pairs text, pairName hit.value = name) ∧ name ∈ map.keys := by
  have htracks := @tracks_resolvePairs map [] [] (pairs text) (tracks_nil map) name
  rw [List.nil_append, List.nil_append, ← resolved] at htracks
  rw [htracks, ← Data.Pairs.hasKey_iff, Data.Pairs.hasKey, List.mem_map]

theorem Cut.id_ne_nil {s : Text} {gaps : List Text} {ps : List Pair} (h : Cut s gaps ps) :
    ∀ p ∈ ps, p.id ≠ [] := by
  induction h with
  | last => exact fun p hp => absurd hp List.not_mem_nil
  | next _ here _ ih => exact List.forall_mem_cons.mpr ⟨here.id_ne_nil, ih⟩

theorem Cut.hit_id_ne_nil {text : Text} {gaps : List Text} {ps : List Pair} (h : Cut text gaps ps) :
    ∀ hit ∈ pairs text, hit.value.id ≠ [] := by
  intro hit hhit
  have hmem : hit.value ∈ (pairs text).map Hit.value := List.mem_map_of_mem hhit
  rw [h.map_value_pairs] at hmem
  exact h.id_ne_nil _ hmem

theorem extras_eq_unclaimed {text : Text} {gaps : List Text} {ps : List Pair}
    (h : Cut text gaps ps) :
    extras map (placedNames (resolved map text)) = unclaimed map ps := by
  refine List.filter_congr fun e he => ?_
  have hkey : e.1 ∈ map.keys := List.mem_map_of_mem he
  rw [Bool.eq_iff_iff, Bool.not_eq_true', ← Bool.not_eq_true, List.contains_iff_mem,
    mem_placedNames_resolved, and_iff_left hkey, List.all_eq_true, ← h.map_value_pairs,
    List.forall_mem_map, not_exists]
  refine forall_congr' fun hit => ?_
  rw [not_and]
  refine imp_congr_right fun hhit => ?_
  rw [enclosedName_of_ne_nil (h.hit_id_ne_nil hit hhit), bne_iff_ne, ne_eq, Option.some.injEq]

end Placed

/-! ## The whole text -/

/-- The entries as they are added to a text. -/
def helperLines (es : Data.Pairs Text Text) : Text :=
  es.flatMap fun e =>
    ("\n\n    // Additional helper method generated by LLM: " : Text) ++ e.1 ++ "\n    " ++ e.2

/-- `out` is `content` with the entries written out before its last closing brace,
or at the end of a content that has none. -/
inductive Adds (es : Data.Pairs Text Text) : Text → Text → Prop
  | none (h : es = []) (content : Text) : Adds es content content
  | brace (h : es ≠ []) (before : Text) {rest : Text} (last : '\x7d' ∉ rest) :
      Adds es (before ++ '\x7d' :: rest) (before ++ helperLines es ++ "\n" ++ '\x7d' :: rest)
  | bottom (h : es ≠ []) {content : Text} (free : '\x7d' ∉ content) :
      Adds es content (content ++ helperLines es ++ "\n")

theorem extrasText_eq_helperLines (map : Data.Pairs Text Text) (used : List Text) :
    extrasText map used = helperLines (extras map used) := rfl

theorem adds_appendExtras (map : Data.Pairs Text Text) (used : List Text) (content : Text) :
    Adds (extras map used) content (appendExtras map used content) := by
  by_cases hnil : extras map used = []
  · rw [appendExtras_of_nil hnil]
    exact .none hnil content
  · by_cases hbrace : '\x7d' ∈ content
    · obtain ⟨before, rest, rfl, hrest⟩ := exists_last_of_mem hbrace
      rw [appendExtras_brace hnil before hrest, extrasText_eq_helperLines]
      exact .brace hnil before hrest
    · rw [appendExtras_end hnil hbrace, extrasText_eq_helperLines]
      exact .bottom hnil hbrace

theorem exists_fills {text : Text} {gaps : List Text} {ps : List Pair} (h : Cut text gaps ps)
    (map : Data.Pairs Text Text) :
    ∃ placed, Fills map [] ps placed ((resolved map text).map Resolved.text) := by
  rw [← h.map_value_pairs]
  exact exists_fills_resolvePairs (tracks_nil map) h.hit_id_ne_nil

/-- Every entry of the map is placed at the first pair of its name or, where there
is none, added before the last brace of the spliced text; every other pair gives
way to a notice. -/
theorem process_places_every_entry_once {map : Data.Pairs Text Text} {text : Text}
    (hkeys : map.keys.Nodup) (htext : text ≠ []) :
    ∃ gaps ps placed pieces, Cut text gaps ps ∧ Fills map [] ps placed pieces ∧
      (placed ++ unclaimed map ps).Perm map ∧
      Adds (unclaimed map ps) (stitch gaps pieces) (process map text) := by
  obtain ⟨gaps, ps, hcut⟩ := exists_cut text
  obtain ⟨placed, hfills⟩ := exists_fills hcut map
  refine ⟨gaps, ps, placed, _, hcut, hfills, ?_, ?_⟩
  · have hall : extras map [] = map := List.filter_eq_self.mpr fun _ _ => rfl
    have hperm := hfills.placed_append_perm hkeys
    rwa [hall] at hperm
  · have hcontent : replaceMarked map text =
        stitch gaps ((resolved map text).map Resolved.text) := by
      rw [replaceMarked_eq_render, hcut.render_eq, map_text_resolved]
    rw [process, if_neg fun hempty => htext (List.isEmpty_iff.mp hempty), hcontent,
      ← extras_eq_unclaimed hcut]
    exact adds_appendExtras map _ _

/-- Two methods of one name and a lambda. -/
def markedStall : Text :=
  "class Stall \x7b\n// <start-flagged:sell-3>\n  int sell() \x7b return 1; \x7d\n" ++
    "// <end-flagged:sell-3>\n// <start-flagged:sell-2>\n  int sell(int n) \x7b return n; \x7d\n" ++
    "// <end-flagged:sell-2>\n// <start-flagged:Lambda-1>\n  f = x -> x;\n" ++
    "// <end-flagged:Lambda-1>\n\x7d"

def stallPairs : List Pair :=
  [⟨"sell-3", "\n  int sell() \x7b return 1; \x7d\n"⟩,
   ⟨"sell-2", "\n  int sell(int n) \x7b return n; \x7d\n"⟩,
   ⟨"Lambda-1", "\n  f = x -> x;\n"⟩]

/-- What stands for the three pairs. -/
def stallPieces : List Text :=
  ["// <start-replaced:" ++ "sell-3" ++ ">" ++ "\n" ++ sellBody ++ "\n" ++
     ("// <end-replaced:" ++ "sell-3" ++ ">"),
   "// <removed-method: " ++ "sell" ++ " from marker " ++ "sell-2" ++
     ">\n// Original method was removed as " ++
       "its refactored implementation was placed at an earlier marker",
   "// <removed-method: " ++ "Lambda" ++ " from marker " ++ "Lambda-1" ++
     ">\n// Original method was removed as " ++
       "no matching refactored implementation was found"]

def stallAfter : Text :=
  "class Stall \x7b\n// <start-replaced:sell-3>\nint sell() \x7b return 3; \x7d\n" ++
    "// <end-replaced:sell-3>\n// <removed-method: sell from marker sell-2>\n" ++
    "// Original method was removed as its refactored implementation was placed at an earlier " ++
    "marker\n// <removed-method: Lambda from marker Lambda-1>\n// Original method was removed " ++
    "as no matching refactored implementation was found\n" ++
    "\n\n    // Additional helper method generated by LLM: buy\n    int buy() \x7b return 2; \x7d" ++
    "\n\n    // Additional helper method generated by LLM: count\n" ++
    "    int count() \x7b return stock; \x7d\n\x7d"

theorem fills_stallPairs :
    Fills rewrittenShop [] stallPairs (rewrittenShop.take 1) stallPieces := by
  refine .place (?_ : _ = some "sell".toList) ?_ ?_ (.again (?_ : _ = some "sell".toList) ?_ ?_
    (.unmatched (?_ : _ = some "Lambda".toList) ?_ (.done _)))
  all_goals decide +kernel

theorem process_places_every_entry_once_markedStall :
    rewrittenShop.keys.Nodup ∧ markedStall ≠ [] ∧ ∃ gaps, Cut markedStall gaps stallPairs ∧
      Fills rewrittenShop [] stallPairs (rewrittenShop.take 1) stallPieces ∧
      Adds (rewrittenShop.drop 1) (stitch gaps stallPieces) stallAfter ∧
      process rewrittenShop markedStall = stallAfter := by
  have hkeys : rewrittenShop.keys.Nodup := by decide
  have htext : markedStall ≠ [] := by decide
  have hprocess : process rewrittenShop markedStall = stallAfter := by decide +kernel
  have hpairs : (pairs markedStall).map Hit.value = stallPairs := by decide +kernel
  have hrest : unclaimed rewrittenShop stallPairs = rewrittenShop.drop 1 := by decide +kernel
  obtain ⟨gaps, ps, placed, pieces, hcut, hfills, -, hadds⟩ :=
    process_places_every_entry_once hkeys htext
  obtain rfl : stallPairs = ps := hpairs.symm.trans hcut.map_value_pairs
  obtain ⟨-, rfl⟩ := fills_stallPairs.unique hfills hkeys
  rw [hrest, hprocess] at hadds
  exact ⟨hkeys, htext, gaps, hcut, fills_stallPairs, hadds, hprocess⟩

end Marker
end Refit
