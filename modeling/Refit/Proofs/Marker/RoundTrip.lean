/-
Splicing the original code back.

Where every marked block has a name of its own that its lines stand for, the name
put into the id of its markers is the name that the pair between them resolves to.
So a map from these names to the lines of the blocks places each entry at its own
pair, and the file comes back with two wrapper lines around each block
(`unwrapped_process_mark`).
-/
import Refit.Proofs.Marker.Extras
import Refit.Proofs.Marker.Rebuild

namespace Refit
namespace Marker

open Text

/-! ## Words that a text mentions -/

/-- The text holds the word with no identifier character on either side. -/
def Mentions (text word : Text) : Prop :=
  ∃ a b, text = a ++ (word ++ b) ∧ (∀ c ∈ a.getLast?, isIdentChar c = false) ∧
    ∀ c ∈ b.head?, isIdentChar c = false

theorem wholeWord_append {word b : Text} {before : Option Char}
    (hbefore : ∀ c ∈ before, isIdentChar c = false) (hb : ∀ c ∈ b.head?, isIdentChar c = false) :
    wholeWord word before (word ++ b) = some (word.length, ()) := by
  have hleft : (before.map isIdentChar).getD false = false := by
    cases before with
    | none => rfl
    | some c => exact hbefore c rfl
  have hafter : after? word (word ++ b) = some b := after?_eq_some_iff.mpr rfl
  rw [wholeWord, hleft, hafter]
  cases b with
  | nil => rfl
  | cons c b => simp [hb c rfl]

/-- `before` is the last character ahead of the text searched. -/
theorem isSome_firstHitFrom?_wholeWord {word b : Text} (hword : word ≠ [])
    (hb : ∀ c ∈ b.head?, isIdentChar c = false) {a : Text} {pos : Nat} {before : Option Char}
    (ha : ∀ c ∈ a.getLast?.or before, isIdentChar c = false) :
    (firstHitFrom? (wholeWord word) pos before (a ++ (word ++ b))).isSome = true := by
  induction a generalizing pos before with
  | nil =>
      have hhit := @wholeWord_append word b before ha hb
      obtain ⟨c, word, rfl⟩ := List.exists_cons_of_ne_nil hword
      rw [List.nil_append, List.cons_append, firstHitFrom?, ← List.cons_append, hhit]
      rfl
  | cons x a ih =>
      rw [List.cons_append, firstHitFrom?]
      split
      · rfl
      · refine ih fun c hc => ha c ?_
        rw [List.getLast?_cons]
        cases hlast : a.getLast? with
        | none => simpa [hlast] using hc
        | some d => simpa [hlast] using hc

theorem Mentions.isSome_firstHit? {text word : Text} (h : Mentions text word) (hword : word ≠ []) :
    (firstHit? (wholeWord word) text).isSome = true := by
  obtain ⟨a, b, rfl, ha, hb⟩ := h
  refine isSome_firstHitFrom?_wholeWord hword hb ?_
  rwa [Option.or_none]

theorem Mentions.between_breaks {text word : Text} (h : Mentions text word) :
    Mentions ("\n" ++ text ++ "\n") word := by
  obtain ⟨a, b, rfl, ha, hb⟩ := h
  refine ⟨'\n' :: a, b ++ ['\n'], ?_, ?_, ?_⟩
  · simp
  · intro c hc
    rw [List.getLast?_cons] at hc
    cases hlast : a.getLast? with
    | none =>
        obtain rfl : '\n' = c := by simpa [hlast] using hc
        decide
    | some d => exact ha c (by simpa [hlast] using hc)
  · intro c hc
    cases b with
    | nil =>
        obtain rfl : '\n' = c := by simpa using hc
        decide
    | cons d b => exact hb c (by simpa using hc)

/-! ## Blocks that stand for their name -/

/-- The name of a block is that of a kind, or its lines mention it. -/
def NamedByLines (lines : List Text) (b : Block) : Prop :=
  (∃ kind : Kind, kind.name = entityName b) ∨
    Mentions (ofFileLines (blockLines lines b)) (entityName b)

theorem stands_of_namedByLines {lines : List Text} {b : Block} (h : NamedByLines lines b) :
    stands (entityName b) ("\n" ++ ofFileLines (blockLines lines b) ++ "\n") = true := by
  rw [stands, Bool.or_eq_true]
  rcases h with ⟨kind, hkind⟩ | h
  · left
    rw [List.any_eq_true]
    exact ⟨kind, kind.mem_all, beq_iff_eq.mpr hkind⟩
  · right
    rw [Bool.and_eq_true, Bool.not_eq_true', List.isEmpty_eq_false_iff]
    exact ⟨entityName_ne_nil b, h.between_breaks.isSome_firstHit? (entityName_ne_nil b)⟩

theorem plain_of_entityName {b : Block} (h : Plain (entityName b)) : ∀ n ∈ b.name, Plain n := by
  intro n hn
  cases n with
  | nil => constructor <;> exact List.not_mem_nil
  | cons c cs =>
      have hname : entityName b = c :: cs := by rw [entityName, Option.mem_def.mp hn]
      rwa [hname] at h

theorem entityPart_idOf (b : Block) (k : Nat) : entityPart (idOf b k) = entityName b := by
  rw [entityPart, cutLast?_idOf]

/-- The pair of a block resolves to the name that its id was made from. -/
theorem pairName_idOf {b : Block} {k : Nat} {region : Text}
    (h : stands (entityName b) region = true) : pairName ⟨idOf b k, region⟩ = entityName b := by
  have hpart := entityPart_idOf b k
  obtain ⟨c, cs, hid⟩ := List.exists_cons_of_ne_nil (idOf_ne_nil b k)
  rw [hid] at hpart
  simp only [pairName, enclosedName, hid, hpart, Option.any_some, h, if_true, Option.getD_some]

theorem pairName_enclosing {lines : List Text} {b : Block} (hstop : b.span.stop ≤ lines.length)
    (h : NamedByLines lines b) (k : Nat) :
    pairName (enclosing (idOf b k) ((blockLines lines b).map .line)) = entityName b := by
  have hregion := congrArg Pair.region (@enclosing_blockLines lines [] b hstop)
  have hpair : enclosing (idOf b k) ((blockLines lines b).map .line) =
      ⟨idOf b k, "\n" ++ ofFileLines (blockLines lines b) ++ "\n"⟩ := by
    rw [enclosing]
    exact congrArg (Pair.mk _) hregion
  rw [hpair]
  exact pairName_idOf (stands_of_namedByLines h)

/-! ## Names that are placed -/

/-- The names that the pairs among some tokens place, in order. -/
def placedIn (map : Data.Pairs Text Text) : List Text → List Token → List Text
  | _, [] => []
  | used, .char _ :: ts => placedIn map used ts
  | used, .pair p :: ts =>
    match choose map used (pairName p) with
    | .placed _ => pairName p :: placedIn map (placing map used p) ts
    | _ => placedIn map (placing map used p) ts

theorem placedNames_resolvePairs (map : Data.Pairs Text Text) (used : List Text) (pos skip : Nat)
    (before : Option Char) (s : Text) :
    placedNames (resolvePairs map used (hitsFrom pair pos skip before s)) =
      placedIn map used (tokensFrom skip s) := by
  induction s generalizing used pos skip before with
  | nil => rfl
  | cons c s ih =>
      cases skip with
      | succ skip => exact ih used (pos + 1) skip (some c)
      | zero =>
          rw [hitsFrom, tokensFrom, show pair before (c :: s) = pair none (c :: s) from rfl]
          cases pair none (c :: s) with
          | none => exact ih used (pos + 1) 0 (some c)
          | some found =>
              rw [resolvePairs_cons, placedIn, ← ih _ (pos + 1) _ (some c), placedNames,
                List.filterMap_cons]
              cases choose map used (pairName found.2) <;> rfl

theorem placedNames_resolved (map : Data.Pairs Text Text) (s : Text) :
    placedNames (resolved map s) = placedIn map [] (tokens s) :=
  placedNames_resolvePairs map [] 0 0 none s

theorem placedIn_map_char (map : Data.Pairs Text Text) (used : List Text) (x : Text)
    (ts : List Token) : placedIn map used (x.map .char ++ ts) = placedIn map used ts := by
  induction x with
  | nil => rfl
  | cons c x ih => rw [List.map_cons, List.cons_append, placedIn, ih]

theorem placedIn_lines (map : Data.Pairs Text Text) (used ls : List Text) (ps : List Piece) :
    placedIn map used ((ls.map Piece.line ++ ps).flatMap Piece.tokens) =
      placedIn map used (ps.flatMap Piece.tokens) := by
  induction ls with
  | nil => rfl
  | cons l ls ih =>
      rw [List.map_cons, List.cons_append, List.flatMap_cons, Piece.tokens, placedIn_map_char, ih]

/-! ## Wrapper lines -/

def isWrapper (line : Text) : Bool :=
  startsWith startReplacedLead line || startsWith endReplacedLead line

def unwrapped (text : Text) : Text := ofFileLines ((fileLines text).filter fun l => !isWrapper l)

theorem isWrapper_startReplaced (id : Text) : isWrapper (startReplaced id) = true := by
  rw [isWrapper, startReplaced_eq, startsWith_append, Bool.true_or]

theorem isWrapper_endReplaced (id : Text) : isWrapper (endReplaced id) = true := by
  rw [isWrapper, endReplaced_eq, startsWith_append, Bool.or_true]

theorem newline_notMem_startReplaced {id : Text} (hid : Plain id) : '\n' ∉ startReplaced id := by
  rw [startReplaced_eq]
  exact List.not_mem_append (by decide) (List.not_mem_append hid.newline (by decide))

theorem newline_notMem_endReplaced {id : Text} (hid : Plain id) : '\n' ∉ endReplaced id := by
  rw [endReplaced_eq]
  exact List.not_mem_append (by decide) (List.not_mem_append hid.newline (by decide))

/-- The lines that take the place of a pair are those of the body between two
wrappers. -/
theorem fileLines_triple {id : Text} (hid : Plain id) {ls : List Text} (hne : ls ≠ [])
    (hls : ∀ l ∈ ls, '\n' ∉ l) :
    fileLines (startReplaced id ++ "\n" ++ ofFileLines ls ++ "\n" ++ endReplaced id) =
      startReplaced id :: (ls ++ [endReplaced id]) := by
  have hbreaks : startReplaced id ++ "\n" ++ ofFileLines ls ++ "\n" ++ endReplaced id =
      startReplaced id ++ '\n' :: (ofFileLines ls ++ '\n' :: endReplaced id) := by simp
  rw [hbreaks, fileLines_append_break, fileLines_append_break,
    fileLines_of_notMem (newline_notMem_startReplaced hid),
    fileLines_of_notMem (newline_notMem_endReplaced hid), fileLines_ofFileLines hne,
    flatMap_fileLines_of_notMem hls]
  rfl

/-! ## Blocks that get their lines back -/

/-- When the names in `used` have been placed, the map still has for each block its
own lines, under a name that no other block has. -/
structure Restores (map : Data.Pairs Text Text) (lines used : List Text) (bs : List Block) :
    Prop where
  stop : ∀ b ∈ bs, b.span.stop ≤ lines.length
  plain : ∀ b ∈ bs, Plain (entityName b)
  named : ∀ b ∈ bs, NamedByLines lines b
  distinct : bs.Pairwise fun a b => entityName a ≠ entityName b
  fresh : ∀ b ∈ bs, entityName b ∉ used
  body : ∀ b ∈ bs, map.get? (entityName b) = some (ofFileLines (blockLines lines b))

namespace Restores

variable {map : Data.Pairs Text Text} {lines used : List Text} {b : Block} {bs : List Block}

theorem choose_eq (h : Restores map lines used (b :: bs)) (k : Nat) :
    choose map used (pairName (enclosing (idOf b k) ((blockLines lines b).map .line))) =
      .placed (ofFileLines (blockLines lines b)) := by
  have hb : b ∈ b :: bs := List.mem_cons_self
  rw [pairName_enclosing (h.stop b hb) (h.named b hb), choose, h.body b hb, if_neg]
  rw [List.contains_iff_mem]
  exact h.fresh b hb

theorem placing_eq (h : Restores map lines used (b :: bs)) (k : Nat) :
    placing map used (enclosing (idOf b k) ((blockLines lines b).map .line)) =
      used ++ [entityName b] := by
  have hb : b ∈ b :: bs := List.mem_cons_self
  rw [placing, h.choose_eq, pairName_enclosing (h.stop b hb) (h.named b hb)]

theorem replacement_eq (h : Restores map lines used (b :: bs)) (k : Nat) :
    replacement map used (enclosing (idOf b k) ((blockLines lines b).map .line)) =
      startReplaced (idOf b k) ++ "\n" ++ ofFileLines (blockLines lines b) ++ "\n" ++
        endReplaced (idOf b k) := by
  rw [replacement, h.choose_eq]
  rfl

theorem tail (h : Restores map lines used (b :: bs)) :
    Restores map lines (used ++ [entityName b]) bs := by
  obtain ⟨hstop, hplain, hnamed, hdistinct, hfresh, hbody⟩ := h
  rw [List.forall_mem_cons] at hstop hplain hnamed hfresh hbody
  rw [List.pairwise_cons] at hdistinct
  refine ⟨hstop.2, hplain.2, hnamed.2, hdistinct.2, fun c hc hmem => ?_, hbody.2⟩
  rcases List.mem_append.mp hmem with hmem | hmem
  · exact hfresh.2 c hc hmem
  · exact hdistinct.1 c hc (List.mem_singleton.mp hmem).symm

end Restores

/-- Lines of a file are left as they are by splitting and unwrapping. -/
theorem filter_flatMap_fileLines {lines : List Text}
    (hlines : ∀ l ∈ lines, '\n' ∉ l ∧ isWrapper l = false) (ls : List Text)
    (hls : ∀ l ∈ ls, l ∈ lines) :
    (ls.flatMap fileLines).filter (fun l => !isWrapper l) = ls := by
  rw [flatMap_fileLines_of_notMem fun l hl => (hlines l (hls l hl)).1, List.filter_eq_self]
  intro l hl
  rw [(hlines l (hls l hl)).2]
  rfl

theorem mem_of_mem_blockLines {lines : List Text} {b : Block} {l : Text}
    (h : l ∈ blockLines lines b) : l ∈ lines :=
  List.mem_of_mem_take (List.mem_of_mem_drop h)

theorem blockLines_ne_nil {lines : List Text} {b : Block} (hstop : b.span.stop ≤ lines.length) :
    blockLines lines b ≠ [] := by
  have hlen := length_blockLines hstop
  have hspan := b.span.start_le_stop
  have hpos := b.span.start_pos
  rw [← List.length_pos_iff]
  omega

section Spaced

variable {map : Data.Pairs Text Text} {lines used : List Text} {bs : List Block} {k : Nat}

/-- Behind the first `k` lines the file comes back, wrapped. -/
theorem filter_written_spacedPieces (h : Restores map lines used bs)
    (hlines : ∀ l ∈ lines, '\n' ∉ l ∧ isWrapper l = false)
    (hspaced : bs.Pairwise fun a b => a.span.stop < b.span.start)
    (hk : ∀ b ∈ bs, k < b.span.start) :
    ((written map used (spacedPieces lines k (numberedDown bs))).flatMap fileLines).filter
        (fun l => !isWrapper l) = lines.drop k := by
  induction bs generalizing used k with
  | nil =>
      rw [numberedDown, spacedPieces, ← List.append_nil ((lines.drop k).map _), written_lines,
        written, List.append_nil]
      exact filter_flatMap_fileLines hlines _ fun l => List.mem_of_mem_drop
  | cons b bs ih =>
      rw [List.pairwise_cons] at hspaced
      have hstop := h.stop b List.mem_cons_self
      have hstart := hk b List.mem_cons_self
      have hspan := b.span.start_le_stop
      have hid := idOf_plain (plain_of_entityName (h.plain b List.mem_cons_self)) (bs.length + 1)
      have hrest := ih h.tail hspaced.2 hspaced.1
      have hgap := filter_flatMap_fileLines hlines ((lines.take (b.span.start - 1)).drop k)
        fun l hl => List.mem_of_mem_take (List.mem_of_mem_drop hl)
      have hinside := filter_flatMap_fileLines hlines (blockLines lines b)
        fun l => mem_of_mem_blockLines
      have hbreaks : ∀ l ∈ blockLines lines b, '\n' ∉ l := fun l hl =>
        (hlines l (mem_of_mem_blockLines hl)).1
      rw [flatMap_fileLines_of_notMem hbreaks] at hinside
      -- The gap before the block, the block between its wrappers, and what is behind it.
      rw [numberedDown, spacedPieces, written_lines, written, h.placing_eq, h.replacement_eq,
        List.flatMap_append, List.flatMap_cons,
        fileLines_triple hid (blockLines_ne_nil hstop) hbreaks, List.filter_append, hgap,
        List.filter_append, hrest, List.filter_cons_of_neg, List.filter_append, hinside,
        List.filter_cons_of_neg, List.filter_nil, List.append_nil,
        drop_eq_append_drop lines (show k ≤ b.span.start - 1 by omega),
        drop_eq_append_drop lines (show b.span.start - 1 ≤ b.span.stop by omega)]
      · rfl
      · rw [isWrapper_endReplaced]
        decide
      · rw [isWrapper_startReplaced]
        decide

theorem placedIn_spacedPieces (h : Restores map lines used bs) :
    placedIn map used ((spacedPieces lines k (numberedDown bs)).flatMap Piece.tokens) =
      bs.map entityName := by
  induction bs generalizing used k with
  | nil =>
      rw [numberedDown, spacedPieces, ← List.append_nil ((lines.drop k).map _), placedIn_lines]
      rfl
  | cons b bs ih =>
      have hb : b ∈ b :: bs := List.mem_cons_self
      have hrest := @ih (used ++ [entityName b]) b.span.stop h.tail
      rw [numberedDown, spacedPieces, placedIn_lines, List.flatMap_cons, Piece.tokens,
        List.cons_append, placedIn, List.singleton_append, placedIn, h.choose_eq, h.placing_eq]
      simp only [hrest, pairName_enclosing (h.stop b hb) (h.named b hb), List.map_cons]

end Spaced

/-! ## The whole file -/

theorem extras_eq_nil {map : Data.Pairs Text Text} {used : List Text}
    (h : ∀ name ∈ map.keys, name ∈ used) : extras map used = [] := by
  rw [extras, List.filter_eq_nil_iff]
  intro e he
  simpa using h e.1 (List.mem_map_of_mem he)

/-- Where every entry of the map is placed there is nothing to add. -/
theorem process_eq_replaceMarked {map : Data.Pairs Text Text} {text : Text}
    (h : ∀ name ∈ map.keys, name ∈ placedNames (resolved map text)) :
    process map text = replaceMarked map text := by
  rw [process]
  split
  · next hempty =>
    rw [List.isEmpty_iff.mp hempty]
    rfl
  · exact appendExtras_of_nil (extras_eq_nil h) _

section Text

variable {text : Text} {blocks : List Block}

/-- The lines of a resolved text whose marked blocks share no line, and the names
that its pairs place. -/
theorem fileLines_replaceMarked_of_apart (map : Data.Pairs Text Text) (htext : text ≠ [])
    (hstart : occurs startLead text = false) (hend : occurs endLead text = false)
    (hnames : ∀ b ∈ markable (fileLines text).length blocks, ∀ name ∈ b.name, Plain name)
    (hapart : (markable (fileLines text).length blocks).Pairwise Apart) :
    fileLines (replaceMarked map (mark text blocks)) =
        (written map [] (spacedPieces (fileLines text) 0 (marksDown text blocks))).flatMap
          fileLines ∧
      placedNames (resolved map (mark text blocks)) =
        placedIn map []
          ((spacedPieces (fileLines text) 0 (marksDown text blocks)).flatMap Piece.tokens) := by
  have hparses := parses_spacedPieces (fun _ hm => stop_le_of_mem_marksDown hm)
    (pairwise_numberedDown (pairwise_topDown_of_apart hapart)) (fun m _ => m.1.span.start_pos)
  have hclean : ∀ r ∈ sheet (fileLines text) (marksDown text blocks), r.Clean := fun _ hr =>
    clean_of_mem_sheet (occurs_eq_false_iff.mp hstart) (occurs_eq_false_iff.mp hend) hnames hr
  have hne := sheet_ne_nil (fileLines_ne_nil text) (marksDown text blocks)
  constructor
  · rw [replaceMarked_mark map htext hstart hend hnames hparses,
      fileLines_ofFileLines (written_ne_nil map [] (hparses.ne_nil hne))]
  · rw [placedNames_resolved, mark_eq_sheet htext, ← cons_tokens_of_parses hparses hclean hne]
    rfl

/-- The entry that gives a block its own lines back. -/
def original (lines : List Text) (b : Block) : Text × Text :=
  (entityName b, ofFileLines (blockLines lines b))

theorem restores_originals {map : Data.Pairs Text Text}
    (hplain : ∀ b ∈ markable (fileLines text).length blocks, Plain (entityName b))
    (hnamed : ∀ b ∈ markable (fileLines text).length blocks, NamedByLines (fileLines text) b)
    (hdistinct : (markable (fileLines text).length blocks).Pairwise fun a b =>
      entityName a ≠ entityName b)
    (hmap : map.Perm ((markable (fileLines text).length blocks).map (original (fileLines text)))) :
    Restores map (fileLines text) [] (topDown (fileLines text).length blocks) := by
  have hperm := topDown_perm (fileLines text).length blocks
  have hkeys : map.keys.Nodup := by
    have hnames : map.keys.Perm ((markable (fileLines text).length blocks).map entityName) := by
      have hfst := hmap.map Prod.fst
      rwa [List.map_map] at hfst
    rw [hnames.nodup_iff, List.Nodup, List.pairwise_map]
    exact hdistinct
  refine ⟨fun b hb => stop_le_of_mem_markable (hperm.mem_iff.mp hb),
    fun b hb => hplain b (hperm.mem_iff.mp hb), fun b hb => hnamed b (hperm.mem_iff.mp hb),
    hdistinct.perm hperm.symm Ne.symm, fun b _ => List.not_mem_nil, fun b hb => ?_⟩
  refine Data.Pairs.get?_of_mem hkeys (hmap.mem_iff.mpr ?_)
  exact List.mem_map.mpr ⟨b, hperm.mem_iff.mp hb, rfl⟩

end Text

/-- Marking a file, splicing the lines of its marked blocks back and taking the
wrapper lines out gives the file. -/
theorem unwrapped_process_mark {text : Text} {blocks : List Block} {map : Data.Pairs Text Text}
    (htext : text ≠ []) (hstart : occurs startLead text = false)
    (hend : occurs endLead text = false) (hfree : ∀ l ∈ fileLines text, isWrapper l = false)
    (hapart : (markable (fileLines text).length blocks).Pairwise Apart)
    (hdistinct : (markable (fileLines text).length blocks).Pairwise fun a b =>
      entityName a ≠ entityName b)
    (hplain : ∀ b ∈ markable (fileLines text).length blocks, Plain (entityName b))
    (hnamed : ∀ b ∈ markable (fileLines text).length blocks,
      (∃ kind : Kind, kind.name = entityName b) ∨
        Mentions (ofFileLines (blockLines (fileLines text) b)) (entityName b))
    (hmap : map.Perm ((markable (fileLines text).length blocks).map fun b =>
      (entityName b, ofFileLines (blockLines (fileLines text) b)))) :
    unwrapped (process map (mark text blocks)) = text := by
  have hrestores := restores_originals hplain hnamed hdistinct hmap
  obtain ⟨hlines, hplaced⟩ := fileLines_replaceMarked_of_apart map htext hstart hend
    (fun b hb => plain_of_entityName (hplain b hb)) hapart
  have hall : ∀ name ∈ map.keys, name ∈ placedNames (resolved map (mark text blocks)) := by
    intro name hname
    rw [hplaced, marksDown, placedIn_spacedPieces hrestores]
    obtain ⟨e, he, rfl⟩ := List.mem_map.mp hname
    obtain ⟨b, hb, rfl⟩ := List.mem_map.mp (hmap.mem_iff.mp he)
    exact List.mem_map_of_mem ((topDown_perm _ blocks).mem_iff.mpr hb)
  rw [process_eq_replaceMarked hall, unwrapped, hlines, marksDown,
    filter_written_spacedPieces hrestores
      (fun l hl => ⟨notMem_of_mem_fileLines hl, hfree l hl⟩) (pairwise_topDown_of_apart hapart)
      (fun b _ => b.span.start_pos),
    List.drop_zero, ofFileLines_fileLines]

/-- The methods of the shop, of which the first also mentions the name of the
second, and a lambda without a name. -/
def callingText : Text :=
  "class Shop \x7b\n  int sell() \x7b\n    return buy();\n  \x7d\n" ++
    "  int buy() \x7b return 2; \x7d\n  f = x ->\n    x;\n\x7d"

def callingBlocks : List Block :=
  shopMethods ++ [flaggedBehind .lambda none 5 1]

theorem unwrapped_process_mark_callingText :
    markable (fileLines callingText).length callingBlocks = callingBlocks ∧
    unwrapped (process (callingBlocks.map (original (fileLines callingText)))
      (mark callingText callingBlocks)) = callingText := by
  have hmarked : markable (fileLines callingText).length callingBlocks = callingBlocks := by
    decide +kernel
  refine ⟨hmarked, unwrapped_process_mark (by decide) (by decide +kernel) (by decide +kernel)
    (by decide +kernel) ?_ ?_ ?_ ?_ ?_⟩
  · rw [hmarked]
    decide
  · rw [hmarked]
    decide
  · rw [hmarked]
    decide
  · rw [hmarked]
    refine List.forall_mem_cons.mpr ⟨.inr ?_, List.forall_mem_cons.mpr ⟨.inr ?_,
      List.forall_mem_singleton.mpr (.inl ⟨.lambda, by decide +kernel⟩)⟩⟩
    · refine ⟨"  int ".toList, "() \x7b\n    return buy();\n  \x7d".toList, by decide +kernel,
        ?_, ?_⟩ <;> rintro c ⟨⟩ <;> decide
    · refine ⟨"  int ".toList, "() \x7b return 2; \x7d".toList, by decide +kernel, ?_, ?_⟩ <;>
        rintro c ⟨⟩ <;> decide
  · rw [hmarked]
    exact .refl _

end Marker
end Refit
