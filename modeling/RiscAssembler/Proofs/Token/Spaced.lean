import RiscAssembler.Proofs.Token.Respelling
import RiscAssembler.Token.Layout

/-!
Contract: tokens put back on their lines are scanned as the same tokens.

Owns:
- tokens with a space between any two of them;
- lines of such tokens with a line break between any two of them;
- the division of tokens in order of lines into the tokens of each line;
- the spelling of a token as all that its kind depends on.

Main statements: `scan_lines`, by induction on the number of lines, and `tokenize_spaced`.
-/

namespace RiscAssembler

theorem Spells.kind_unique {text : List Char} {left right : TokenKind} (first : Spells text left)
    (second : Spells text right) : left = right := by
  have same := (first 0).symm.trans (second 0)
  cases same
  rfl

/-! ### Lines of tokens -/

theorem intercalate_nil_singletons (tokens : List Token) :
    [].intercalate (tokens.map ([·])) = tokens := by
  induction tokens with
  | nil => rfl
  | cons token rest inductionHypothesis =>
      cases rest with
      | nil => rfl
      | cons next rest =>
          rw [List.map_cons] at inductionHypothesis
          rw [List.map_cons, List.map_cons, List.intercalate_cons_cons, inductionHypothesis]
          rfl

/-- The spellings of tokens, with a space between any two of them. -/
def spacedLine (tokens : List Token) : List Char :=
  [' '].intercalate (tokens.map (·.lexeme.toList))

theorem scan_spacedLine {tokens : List Token} {line : Nat}
    (spelled : ∀ token ∈ tokens, Spells token.lexeme.toList token.kind ∧ token.line = line)
    {after : List Char} (separated : Separated after) :
    Cursor.scan ⟨spacedLine tokens ++ after, line⟩ =
      tokens.map ScanItem.token ++ Cursor.scan ⟨after, line⟩ := by
  have blank (rest : List Char) : Cursor.scan ⟨[' '] ++ rest, line⟩ =
      ([] : List Token).map ScanItem.token ++ Cursor.scan ⟨rest, line⟩ :=
    scan_blank rest line
  have scanned := scan_separated (fun rest => separated_cons rfl) blank spelled separated
  rwa [intercalate_nil_singletons] at scanned

/-- Lines of tokens, one below the other, are scanned as these tokens, each on its line. -/
theorem scan_lines {tokensOn : Nat → List Token}
    (spelled : ∀ line, ∀ token ∈ tokensOn line,
      Spells token.lexeme.toList token.kind ∧ token.line = line)
    (first count : Nat) :
    Cursor.scan
        ⟨['\n'].intercalate ((List.range' first count).map fun line => spacedLine (tokensOn line)),
          first⟩ =
      ((List.range' first count).flatMap tokensOn).map ScanItem.token := by
  induction count generalizing first with
  | zero => exact Cursor.scan_nil first
  | succ count inductionHypothesis =>
      have later := inductionHypothesis (first + 1)
      rw [List.range'_succ, List.map_cons, List.flatMap_cons, List.map_append, ← later]
      cases count with
      | zero =>
          have alone := scan_spacedLine (spelled first) separated_nil
          rw [List.append_nil, Cursor.scan_nil] at alone
          rw [List.range'_zero, List.map_nil, List.intercalate_singleton, alone]
          exact congrArg _ (Cursor.scan_nil (first + 1)).symm
      | succ count =>
          rw [List.range'_succ, List.map_cons, List.intercalate_cons_cons, List.append_assoc,
            List.singleton_append, scan_spacedLine (spelled first) (Cursor.separated_newline _)]
          exact congrArg _ (scan_newline _ first)

/-! ### Tokens of each line -/

theorem filter_line_append {tokens : List Token} {first : Nat}
    (ordered : tokens.Pairwise fun left right => left.line ≤ right.line)
    (below : ∀ token ∈ tokens, first ≤ token.line) :
    tokens.filter (·.line = first) ++ tokens.filter (·.line ≠ first) = tokens := by
  induction tokens with
  | nil => rfl
  | cons token rest inductionHypothesis =>
      obtain ⟨later, restOrdered⟩ := List.pairwise_cons.mp ordered
      obtain ⟨here, restBelow⟩ := List.forall_mem_cons.mp below
      by_cases onFirst : token.line = first
      · have restSplit := inductionHypothesis restOrdered restBelow
        simpa [onFirst] using restSplit
      · have noneOnFirst : ∀ other ∈ token :: rest, other.line ≠ first := by
          intro other member
          rcases List.mem_cons.mp member with rfl | isLater
          · exact onFirst
          · have order := later other isLater
            omega
        rw [List.filter_eq_nil_iff.mpr (by simpa using noneOnFirst),
          List.filter_eq_self.mpr (by simpa using noneOnFirst), List.nil_append]

/-- Tokens in order of lines are the tokens of the first line, then those of the next, and so on. -/
theorem flatMap_filter_line {tokens : List Token} {first count : Nat}
    (ordered : tokens.Pairwise fun left right => left.line ≤ right.line)
    (inside : ∀ token ∈ tokens, first ≤ token.line ∧ token.line < first + count) :
    (List.range' first count).flatMap (fun line => tokens.filter (·.line = line)) = tokens := by
  induction count generalizing first tokens with
  | zero =>
      cases tokens with
      | nil => rfl
      | cons token rest =>
          have bounds := inside token List.mem_cons_self
          omega
  | succ count inductionHypothesis =>
      have below : ∀ token ∈ tokens, first ≤ token.line := fun token member =>
        (inside token member).1
      have laterInside : ∀ token ∈ tokens.filter (·.line ≠ first),
          first + 1 ≤ token.line ∧ token.line < first + 1 + count := by
        intro token member
        obtain ⟨isToken, different⟩ := List.mem_filter.mp member
        have bounds := inside token isToken
        have notFirst : token.line ≠ first := by simpa using different
        omega
      have later := inductionHypothesis (ordered.filter _) laterInside
      -- on the lines behind the first one, nothing is missing without the first one
      have sameLines : (List.range' (first + 1) count).flatMap
            (fun line => tokens.filter (·.line = line)) =
          (List.range' (first + 1) count).flatMap
            (fun line => (tokens.filter (·.line ≠ first)).filter (·.line = line)) := by
        apply List.flatMap_congr
        intro line member
        have behind := (List.mem_range'_1.mp member).1
        rw [List.filter_filter]
        apply List.filter_congr
        intro token _
        by_cases onLine : token.line = line
        · have notFirst : line ≠ first := by omega
          simp [onLine, notFirst]
        · simp [onLine]
      rw [List.range'_succ, List.flatMap_cons, sameLines, later, filter_line_append ordered below]

/-! ### Whole texts -/

namespace Layout

theorem le_foldl_max_line (tokens : List Token) (start : Nat) :
    start ≤ tokens.foldl (fun last token => max last token.line) start ∧
      ∀ token ∈ tokens,
        token.line ≤ tokens.foldl (fun last token => max last token.line) start := by
  induction tokens generalizing start with
  | nil => simp
  | cons token rest inductionHypothesis =>
      obtain ⟨fromStart, members⟩ := inductionHypothesis (max start token.line)
      rw [List.foldl_cons]
      refine ⟨by omega, ?_⟩
      intro other member
      rcases List.mem_cons.mp member with rfl | later
      · omega
      · exact members other later

theorem line_le_lastLine {tokens : List Token} {token : Token} (member : token ∈ tokens) :
    token.line ≤ lastLine tokens :=
  (le_foldl_max_line tokens 0).2 token member

theorem toList_lineText (tokens : List Token) (line : Nat) :
    (lineText tokens line).toList = spacedLine (tokens.filter (·.line = line)) := by
  rw [lineText, String.toList_intercalate, List.map_map]
  rfl

theorem toList_spaced (tokens : List Token) :
    (spaced tokens).toList =
      ['\n'].intercalate ((List.range' 1 (lastLine tokens)).map fun line =>
        spacedLine (tokens.filter (·.line = line))) := by
  rw [spaced, String.toList_intercalate, List.map_map, List.range'_eq_map_range, List.map_map]
  congr 1
  apply List.map_congr_left
  intro index _
  rw [Function.comp_apply, Function.comp_apply, toList_lineText, Nat.add_comm]

/-- Tokens in order of lines, put back on their lines, are scanned as themselves. -/
theorem scan_spaced {tokens : List Token}
    (spells : ∀ token ∈ tokens, Spells token.lexeme.toList token.kind)
    (ordered : tokens.Pairwise fun left right => left.line ≤ right.line)
    (placed : ∀ token ∈ tokens, 1 ≤ token.line) :
    (Cursor.start (spaced tokens)).scan = tokens.map ScanItem.token := by
  have inside : ∀ token ∈ tokens, 1 ≤ token.line ∧ token.line < 1 + lastLine tokens := by
    intro token member
    have last := line_le_lastLine member
    have start := placed token member
    omega
  have spelled : ∀ line, ∀ token ∈ tokens.filter (·.line = line),
      Spells token.lexeme.toList token.kind ∧ token.line = line := by
    intro line token member
    obtain ⟨isToken, onLine⟩ := List.mem_filter.mp member
    exact ⟨spells token isToken, by simpa using onLine⟩
  rw [Cursor.start, toList_spaced, scan_lines spelled, flatMap_filter_line ordered inside]

end Layout

/-- Tokens are read back from the text that has them on their lines with a space between any two of
them: whatever stood between them in the source, blanks, comments, the rest of a faulted line or
nothing, the text has the same tokens and nothing to report. The spelling of a token decides its
kind, in whatever text it stands. -/
theorem tokenize_spaced {source : String} (nonempty : (tokenize source).value ≠ []) :
    tokenize (Layout.spaced (tokenize source).value) = ⟨(tokenize source).value, []⟩ ∧
      ∀ token ∈ (tokenize source).value, ∀ (other : String), ∀ another ∈ (tokenize other).value,
        another.lexeme = token.lexeme → another.kind = token.kind := by
  constructor
  · apply tokenize_of_scan_eq nonempty
    apply Layout.scan_spaced
    · exact fun token => spells_of_mem_tokenize
    · exact tokenize_pairwise_line_le source
    · exact fun token member => (line_of_mem_tokenize member).1
  · intro token member other another isAnother sameLexeme
    have spells := spells_of_mem_tokenize isAnother
    rw [sameLexeme] at spells
    exact spells.kind_unique (spells_of_mem_tokenize member)

/-- Tokens without a separator between them, a faulted remainder, and a line without tokens. -/
theorem tokenize_spaced_glued :
    (tokenize "1ADD 0x1Fx5,8(X6) $ ?\n\n1.2.3 # rest\nX1-5").value ≠ [] ∧
      Layout.spaced (tokenize "1ADD 0x1Fx5,8(X6) $ ?\n\n1.2.3 # rest\nX1-5").value =
        "1 ADD 0x1F x5 , 8 ( X6 )\n\n1.2\nX1 -5" ∧
      (tokenize "1 ADD 0x1F x5 , 8 ( X6 )\n\n1.2\nX1 -5").value =
        (tokenize "1ADD 0x1Fx5,8(X6) $ ?\n\n1.2.3 # rest\nX1-5").value ∧
      (tokenize "1 ADD 0x1F x5 , 8 ( X6 )\n\n1.2\nX1 -5").diagnostics = [] := by
  have nonempty : (tokenize "1ADD 0x1Fx5,8(X6) $ ?\n\n1.2.3 # rest\nX1-5").value ≠ [] := by
    decide +kernel
  have printed : Layout.spaced (tokenize "1ADD 0x1Fx5,8(X6) $ ?\n\n1.2.3 # rest\nX1-5").value =
      "1 ADD 0x1F x5 , 8 ( X6 )\n\n1.2\nX1 -5" := by
    decide +kernel
  have again := (tokenize_spaced nonempty).1
  rw [printed] at again
  refine ⟨nonempty, printed, ?_, ?_⟩
  · rw [again]
  · rw [again]

end RiscAssembler
