import DatafileMigration.Proofs.Datafile.Quotation
import DatafileMigration.Resource.Basic

namespace DatafileMigration

namespace Datafile

open Text (strip)

variable {lines rest block : List Text}

theorem blockExtent_append_rest (behind : AtColumnZero rest) (lines : List Text) :
    blockExtent (lines ++ rest) = blockExtent lines ∧
      afterBlock (lines ++ rest) = afterBlock lines ++ rest := by
  have below : ∀ line ∈ blockExtent lines, startsAtColumnZero line = false :=
    fun _ => below_of_mem_blockExtent
  have front : AtColumnZero (afterBlock lines ++ rest) := by
    intro line first
    cases tail : afterBlock lines with
    | nil =>
      rw [tail, List.nil_append] at first
      exact behind line first
    | cons next others =>
      rw [tail] at first
      exact atColumnZero_afterBlock lines line (by rwa [tail])
  have split := blockExtent_append below front
  rwa [← List.append_assoc, blockExtent_append_afterBlock] at split

/-- What stands below lines is scanned on its own, if it starts at column zero. Of the lines above,
those below know nothing but how many they are. -/
theorem scanLines_append (behind : AtColumnZero rest) (number : Nat) (lines : List Text) :
    scanLines number (lines ++ rest) =
      scanLines number lines ++ scanLines (number + lines.length) rest := by
  fun_induction scanLines number lines with
  | case1 number => rfl
  | case2 number line lines stripped skipped ih =>
    rw [List.cons_append, scanLines, if_pos skipped, ih, List.length_cons, Nat.add_assoc,
      Nat.add_comm 1]
  | case3 number line lines stripped spoken keyword cut ih =>
    obtain ⟨extent, below⟩ := blockExtent_append_rest behind lines
    have length : number + 1 + (blockExtent lines).length + (afterBlock lines).length =
        number + (line :: lines).length := by
      have parts := congrArg List.length (blockExtent_append_afterBlock lines)
      rw [List.length_append] at parts
      rw [List.length_cons]
      omega
    rw [List.cons_append, scanLines, if_neg spoken, cut]
    dsimp only
    rw [if_pos rfl, extent, below, ih, length, blockContent, extent, ← blockContent,
      List.cons_append]
  | case4 number line lines stripped spoken keyword value cut other ih =>
    rw [List.cons_append, scanLines, if_neg spoken, cut]
    dsimp only
    rw [if_neg other, ih, List.length_cons, Nat.add_assoc, Nat.add_comm 1, List.cons_append]

/-- Lines say the same under other numbers. -/
theorem scanLines_content (number number' : Nat) (lines : List Text) :
    (scanLines number lines).map Directive.content =
      (scanLines number' lines).map Directive.content := by
  fun_induction scanLines number lines generalizing number' with
  | case1 number => rw [scanLines]
  | case2 number line lines stripped skipped ih =>
    rw [ih (number' + 1), scanLines, if_pos skipped]
  | case3 number line lines stripped spoken keyword cut ih =>
    rw [List.map_cons, ih (number' + 1 + (blockExtent lines).length), scanLines, if_neg spoken, cut]
    rfl
  | case4 number line lines stripped spoken keyword value cut other ih =>
    rw [List.map_cons, ih (number' + 1), scanLines, if_neg spoken, cut]
    dsimp only
    rw [if_neg other]
    rfl

/-- The keywords of the directives that lines make. -/
def keywords (lines : List Text) : List Text := (scanLines 1 lines).map Directive.keyword

theorem map_keyword_scanLines (number : Nat) (lines : List Text) :
    (scanLines number lines).map Directive.keyword = keywords lines := by
  have firsts (number : Nat) : ((scanLines number lines).map Directive.content).map Prod.fst =
      (scanLines number lines).map Directive.keyword := List.map_map
  rw [keywords, ← firsts, ← firsts, scanLines_content number 1]

theorem keywords_append (behind : AtColumnZero rest) (lines : List Text) :
    keywords (lines ++ rest) = keywords lines ++ keywords rest := by
  rw [keywords, scanLines_append behind, List.map_append, map_keyword_scanLines,
    map_keyword_scanLines]

section

variable {keyword value : Text} (word : IsKeyword keyword)

include word

theorem atColumnZero_line (t : Text) (rest : List Text) :
    AtColumnZero ((keyword ++ t) :: rest) := by
  intro line first
  obtain rfl := Option.some.inj first
  exact word.startsAtColumnZero_line t

/-- A directive among lines, with its value. -/
theorem scanLines_inline (stripped : strip value = value) (inline : value ≠ ">")
    (number : Nat) (lines rest : List Text) :
    scanLines number (lines ++ (keyword ++ " " ++ value) :: rest) =
      scanLines number lines ++ ⟨keyword, .inline value, number + lines.length⟩
        :: scanLines (number + lines.length + 1) rest := by
  rw [List.append_assoc keyword, scanLines_append (atColumnZero_line word _ rest),
    ← List.append_assoc keyword, scanLines_line word stripped, if_neg inline]

/-- A directive among lines, with its block. -/
theorem scanLines_block (below : ∀ line ∈ block, startsAtColumnZero line = false)
    (behind : AtColumnZero rest) (number : Nat) (lines : List Text) :
    scanLines number (lines ++ (keyword ++ " >") :: (block ++ rest)) =
      scanLines number lines ++
        ⟨keyword, .block (blockContent (block ++ rest)), number + lines.length⟩
          :: scanLines (number + lines.length + 1 + block.length) rest := by
  obtain ⟨extent, after⟩ := blockExtent_append below behind
  have arrow : strip ">" = ">" := by decide
  have opening : keyword ++ " >" = keyword ++ " " ++ ">" := by
    rw [List.append_assoc]
    rfl
  rw [scanLines_append (atColumnZero_line word _ (block ++ rest)), opening,
    scanLines_line word arrow, if_pos rfl, extent, after]

end

end Datafile

theorem Datafile.scan_join {lines : List Text} (some : lines ≠ [])
    (single : ∀ line ∈ lines, '\n' ∉ line) :
    Datafile.scan (Text.join "\n" lines) = Datafile.scanLines 1 lines := by
  rw [Datafile.scan_eq_scanLines]
  exact congrArg (Datafile.scanLines 1) (Text.splitOn_join some single)

/-- The file with the lines in the place of what it holds. -/
def Datafile.ofLines (file : Datafile) (lines : List Text) : Datafile :=
  { file with content := Text.join "\n" lines }

end DatafileMigration
