import RiscAssembler.Proofs.Assembly.Outcome
import RiscAssembler.Proofs.CommandLine.Perform
import RiscAssembler.Proofs.Dump.Reading

/-!
Contract: the three products of one source agree.

Owns:
- what stands on the error channel for a list of diagnostics, in each style;
- what a run delivers: a text, a report and an exit status;
- the lists that the two dumps are read back as;
- the diagnostics of each product inside those of the next;
- the exit status of each product out of that of the next;
- runs for the three products of one input.

The dumps stop behind the stage that they show, and each of them sorts its own report. The machine
code goes through all stages and sorts one report of all of them.

Main statement: `products_agree`.
-/

namespace RiscAssembler.CommandLine

open Files

/-! ### Reports -/

/-- What stands on the error channel for a list of diagnostics. The plain style has a line for each.
The style for machines has one line, and the list is read back from it. The style for people has an
excerpt for each, of the text that is quoted, and a line that counts them, if there are any. -/
structure Reports (colours : Terminal.Colours) (request : Request) (quoted : String)
    (diagnostics : List Diagnostic) (errors : String) : Prop where
  plain : request.reportStyle = .plain →
    errors = String.join (diagnostics.map fun diagnostic =>
      "Error at line " ++ diagnostic.line.repr ++ ": " ++ diagnostic.message ++ "\n")
  json : request.reportStyle = .json →
    errors = (Dump.diagnostics diagnostics).compact ++ "\n" ∧
      Dump.diagnostics? errors = some diagnostics
  human : request.reportStyle = .human →
    errors = String.join (diagnostics.map fun diagnostic =>
        Excerpt.render colours diagnostic request.input quoted) ++
      if diagnostics = [] then ""
      else String.ofList (Terminal.paint colours .boldRed "error".toList) ++ ": " ++
        (diagnostics.length.repr ++ if diagnostics.length = 1 then " error" else " errors") ++ "\n"

theorem reports_report (colours : Terminal.Colours) {request : Request} {files : FileSystem}
    {quoted : String} (readable : files.read request.input = .ok quoted)
    (diagnostics : List Diagnostic) :
    Reports colours request quoted diagnostics
      ((report colours request diagnostics).run files).1 := by
  constructor
  case plain =>
    intro plain
    rw [report, plain]
    rfl
  case json =>
    intro json
    rw [report, json]
    exact ⟨rfl, Dump.diagnostics?_compact_line diagnostics⟩
  case human =>
    intro human
    rw [run_report_human colours request diagnostics files human readable]
    cases diagnostics with
    | nil => rfl
    | cons diagnostic rest => rfl

/-! ### What a run delivers -/

section Delivery

variable (colours : Terminal.Colours) (files : FileSystem) (arguments : List String)

/-- Arguments ask for a product of an input, and the output can be opened if there is one. -/
structure Asks (product : Product) (input : String) (request : Request) : Prop where
  accepted : Request.ofArguments arguments = .ok request
  product : request.product = product
  input : request.input = input
  writable : ∀ path, request.destination = some path →
    ∃ place, files.openForWriting path = .ok place

/-- A run brings a text to where the request wants it and reports diagnostics in the style of the
request, with what the input holds when the run is over. Its status says whether there are any. -/
structure Delivers (request : Request) (text : String) (diagnostics : List Diagnostic) : Prop where
  shown : request.destination = none → (outcome colours files arguments).output = text
  written : ∀ path, request.destination = some path →
    (outcome colours files arguments).output = "" ∧
      (filesAfter colours files arguments).read path = .ok text
  reported : ∃ quoted, (filesAfter colours files arguments).read request.input = .ok quoted ∧
    Reports colours request quoted diagnostics (outcome colours files arguments).errors
  status : (outcome colours files arguments).status = if diagnostics = [] then 0 else 1

variable {colours files arguments}

theorem delivers_of_ended {request : Request} {text output quoted : String}
    {diagnostics : List Diagnostic} {after : FileSystem}
    (ended : (run colours arguments).run files =
      (⟨if diagnostics = [] then 0 else 1, output,
        ((report colours request diagnostics).run after).1⟩, after))
    (readable : after.read request.input = .ok quoted)
    (shown : request.destination = none → output = text)
    (written : ∀ path, request.destination = some path → output = "" ∧ after.read path = .ok text) :
    Delivers colours files arguments request text diagnostics := by
  constructor
  case shown =>
    rw [outcome, ended]
    exact shown
  case written =>
    rw [outcome, filesAfter, ended]
    exact written
  case reported =>
    rw [outcome, filesAfter, ended]
    exact ⟨quoted, readable, reports_report colours readable diagnostics⟩
  case status => rw [outcome, ended]

theorem delivers_of_asks {product : Product} {input source : String} {request : Request}
    (asked : Asks files arguments product input request)
    (readable : files.read input = .ok source) :
    Delivers colours files arguments request (product.text source)
      (product.diagnostics source) := by
  obtain ⟨accepted, rfl, rfl, writable⟩ := asked
  cases destination : request.destination with
  | none =>
      apply delivers_of_ended (run_of_shown accepted readable destination) readable
      · intro _
        rfl
      · intro path names
        rw [destination] at names
        cases names
  | some path =>
      obtain ⟨place, opened⟩ := writable path destination
      obtain ⟨quoted, readableAfter⟩ := FileSystem.readable_put opened readable
      apply delivers_of_ended (run_of_written accepted readable destination opened) readableAfter
      · intro noFile
        rw [destination] at noFile
        cases noFile
      · intro other names
        rw [destination] at names
        cases names
        exact ⟨rfl, FileSystem.read_eq_ok_iff.mpr (FileSystem.readBytes_put_self opened)⟩

theorem Delivers.status_eq_zero_iff {request : Request} {text : String}
    {diagnostics : List Diagnostic}
    (delivered : Delivers colours files arguments request text diagnostics) :
    (outcome colours files arguments).status = 0 ↔ diagnostics = [] := by
  rw [delivered.status]
  split
  · rename_i silent
    exact iff_of_true rfl silent
  · rename_i raised
    exact iff_of_false Nat.one_ne_zero raised

end Delivery

/-! ### Dumps -/

/-- Operands are tokens, so grouping makes no floating-point immediates. -/
theorem floatFree_group {tokens : List Token} (floatFree : ∀ token ∈ tokens, token.FloatFree) :
    ∀ instruction ∈ (group tokens).value, instruction.FloatFree := by
  intro instruction member operand isOperand
  have operands := ((of_mem_segments tokens).2 instruction member).2
  exact floatFree operand (operands operand isOperand)

/-! ### Diagnostics -/

theorem diagnostics_empty (product : Product) : product.diagnostics "" = [⟨0, "empty file"⟩] := by
  cases product with
  | machineCode => rfl
  | tokens => rfl
  | instructions => rfl

theorem diagnostics_tokens_sublist (source : String) :
    (Product.tokens.diagnostics source).Sublist (Product.instructions.diagnostics source) := by
  by_cases empty : source = ""
  · rw [empty, diagnostics_empty, diagnostics_empty]
  · rw [Product.diagnostics, Product.diagnostics, if_neg empty, if_neg empty]
    exact Diagnostics.sorted_sublist_sorted_append _ (strayDiagnostics source)

theorem diagnostics_instructions_sublist (source : String) :
    (Product.instructions.diagnostics source).Sublist
      (Product.machineCode.diagnostics source) := by
  by_cases empty : source = ""
  · rw [empty, diagnostics_empty, diagnostics_empty]
  · have nonempty : source.isEmpty = false := by simpa using empty
    rw [Product.diagnostics, Product.diagnostics, if_neg empty, assemble_of_nonempty nonempty]
    exact Diagnostics.sorted_sublist_sorted_append _ (encodingDiagnostics source)

/-! ### Agreement -/

section Agreement

variable (colours : Terminal.Colours) {files : FileSystem} {input source : String}
  {tokensArguments instructionsArguments codeArguments : List String}
  {tokensRequest instructionsRequest codeRequest : Request}

/-- Three runs on the same files that make the three products of one source. The instructions that
are shown are the grouping of the tokens that are shown, and the output lines are theirs, one for
each. Both lists are read back from the JSON values that are shown, and from the texts themselves
where no token is a floating-point immediate. What one run reports is a part of what the next one
reports, in the same order; for the empty source all of them report the same. So a run without
complaint makes the runs for the products before it run without complaint. -/
theorem products_agree
    (tokensAsked : Asks files tokensArguments .tokens input tokensRequest)
    (instructionsAsked : Asks files instructionsArguments .instructions input instructionsRequest)
    (codeAsked : Asks files codeArguments .machineCode input codeRequest)
    (readable : files.read input = .ok source) :
    Delivers colours files tokensArguments tokensRequest
        ((Dump.tokens (tokenize source).value).indented ++ "\n")
        (Product.tokens.diagnostics source) ∧
      Delivers colours files instructionsArguments instructionsRequest
        ((Dump.instructions (group (tokenize source).value).value).indented ++ "\n")
        (Product.instructions.diagnostics source) ∧
      Delivers colours files codeArguments codeRequest
        (String.join ((assemble source).lines.map (· ++ "\n")))
        (Product.machineCode.diagnostics source) ∧
      Dump.items? Token.ofJson? (Dump.tokens (tokenize source).value) =
        some (tokenize source).value ∧
      Dump.items? Instruction.ofJson? (Dump.instructions (group (tokenize source).value).value) =
        some (group (tokenize source).value).value ∧
      ((∀ token ∈ (tokenize source).value, token.FloatFree) →
        Dump.tokens? ((Dump.tokens (tokenize source).value).indented ++ "\n") =
            some (tokenize source).value ∧
          Dump.instructions?
              ((Dump.instructions (group (tokenize source).value).value).indented ++ "\n") =
            some (group (tokenize source).value).value) ∧
      List.Forall₂ Instruction.Outputs (group (tokenize source).value).value
        (assemble source).lines ∧
      (Product.tokens.diagnostics source).Sublist (Product.instructions.diagnostics source) ∧
      (Product.instructions.diagnostics source).Sublist
        (Product.machineCode.diagnostics source) ∧
      (source = "" → ∀ product : Product, product.diagnostics source = [⟨0, "empty file"⟩]) ∧
      ((outcome colours files codeArguments).status = 0 →
        (outcome colours files instructionsArguments).status = 0) ∧
      ((outcome colours files instructionsArguments).status = 0 →
        (outcome colours files tokensArguments).status = 0) := by
  have tokensDelivered : Delivers colours files tokensArguments tokensRequest _ _ :=
    delivers_of_asks tokensAsked readable
  have instructionsDelivered :
      Delivers colours files instructionsArguments instructionsRequest _ _ :=
    delivers_of_asks instructionsAsked readable
  have codeDelivered : Delivers colours files codeArguments codeRequest _ _ :=
    delivers_of_asks codeAsked readable
  have tokensPart := diagnostics_tokens_sublist source
  have instructionsPart := diagnostics_instructions_sublist source
  refine ⟨tokensDelivered, instructionsDelivered, codeDelivered,
    Dump.items?_array Token.ofJson?_toJson _, Dump.items?_array Instruction.ofJson?_toJson _,
    ?texts, ?lines, tokensPart, instructionsPart, ?empty, ?fromCode, ?fromInstructions⟩
  case texts =>
    intro floatFree
    exact ⟨Dump.tokens?_indented_line floatFree,
      Dump.instructions?_indented_line (floatFree_group floatFree)⟩
  case lines =>
    have outputs := assemble_outputs source
    rw [assemble_instructions] at outputs
    exact outputs
  case empty =>
    intro empty product
    rw [empty]
    exact diagnostics_empty product
  case fromCode =>
    intro success
    have silent := codeDelivered.status_eq_zero_iff.mp success
    rw [silent] at instructionsPart
    exact instructionsDelivered.status_eq_zero_iff.mpr (List.sublist_nil.mp instructionsPart)
  case fromInstructions =>
    intro success
    have silent := instructionsDelivered.status_eq_zero_iff.mp success
    rw [silent] at tokensPart
    exact tokensDelivered.status_eq_zero_iff.mpr (List.sublist_nil.mp tokensPart)

end Agreement

/-- A source with a stray token and a lexical fault on one line and an instruction without operands
on the next, whose diagnostic is sorted in front of the others. Each run reports in another style.
One dump is shown and the other one is written. -/
theorem products_agree_faulty :
    let files := FileSystem.empty.install "p.s" (.file "5 @\nADD\n".toUTF8)
    let tokensShown := ["p.s", "--emit", "tokens"]
    let instructionsWritten := ["--emit=instructions", "p.s", "-o", "i.json", "--diagnostics=json"]
    let codeWritten := ["--diagnostics", "plain", "p.s"]
    Asks files tokensShown .tokens "p.s" ⟨"p.s", none, .tokens, .human⟩ ∧
      Asks files instructionsWritten .instructions "p.s"
        ⟨"p.s", some "i.json", .instructions, .json⟩ ∧
      Asks files codeWritten .machineCode "p.s" ⟨"p.s", none, .machineCode, .plain⟩ ∧
      files.read "p.s" = .ok "5 @\nADD\n" ∧
      outcome .off files tokensShown =
        ⟨1,
          "[\n  \x7b\n    \"kind\": \x7b\n      \"Imm\": 5\n    \x7d,\n" ++
            "    \"lexeme\": \"5\",\n    \"line\": 1\n  \x7d,\n" ++
            "  \x7b\n    \"kind\": \x7b\n      \"Opcode\": \"ADD\"\n    \x7d,\n" ++
            "    \"lexeme\": \"ADD\",\n    \"line\": 2\n  \x7d\n]\n",
          "error: unexpected character: '@'\n  --> p.s:1\n    |\n  1 | 5 @\n    | ^^^\n" ++
            "error: 1 error\n"⟩ ∧
      outcome .off files instructionsWritten =
        ⟨1, "",
          "[\x7b\"line\":1,\"message\":\"unexpected character: '@'\"\x7d," ++
            "\x7b\"line\":1,\"message\":\"unexpected token: 5, expected an opcode\"\x7d]\n"⟩ ∧
      (filesAfter .off files instructionsWritten).read "i.json" =
        .ok ("[\n  \x7b\n    \"opcode\": \"ADD\",\n" ++
          "    \"operands\": [],\n    \"line\": 2\n  \x7d\n]\n") ∧
      outcome .off files codeWritten =
        ⟨1, "",
          "Error at line 0: instruction ADD expects 3 operands, but got 0\n" ++
            "Error at line 1: unexpected character: '@'\n" ++
            "Error at line 1: unexpected token: 5, expected an opcode\n"⟩ ∧
      (filesAfter .off files codeWritten).read "p.bin" = .ok "ERROR\n" := by
  intro files tokensShown instructionsWritten codeWritten
  have tokensAsked : Asks files tokensShown .tokens "p.s" ⟨"p.s", none, .tokens, .human⟩ := by
    refine ⟨rfl, rfl, rfl, ?_⟩
    intro path names
    cases names
  have instructionsAsked : Asks files instructionsWritten .instructions "p.s"
      ⟨"p.s", some "i.json", .instructions, .json⟩ := by
    refine ⟨rfl, rfl, rfl, ?_⟩
    intro path names
    cases names
    exact ⟨_, rfl⟩
  have codeAsked : Asks files codeWritten .machineCode "p.s"
      ⟨"p.s", none, .machineCode, .plain⟩ := by
    refine ⟨rfl, rfl, rfl, ?_⟩
    intro path names
    cases names
    exact ⟨_, rfl⟩
  have readable : files.read "p.s" = .ok "5 @\nADD\n" := FileSystem.read_eq_ok_iff.mpr rfl
  have tokensRaised : Product.tokens.diagnostics "5 @\nADD\n" =
      [⟨1, "unexpected character: '@'"⟩] := by
    have raised : (tokenize "5 @\nADD\n").diagnostics = [⟨1, "unexpected character: '@'"⟩] := by
      decide +kernel
    rw [Product.diagnostics, if_neg (by decide), raised]
    exact List.mergeSort_singleton _
  have instructionsRaised : Product.instructions.diagnostics "5 @\nADD\n" =
      [⟨1, "unexpected character: '@'"⟩, ⟨1, "unexpected token: 5, expected an opcode"⟩] := by
    have raised : (parse "5 @\nADD\n").diagnostics =
        [⟨1, "unexpected character: '@'"⟩, ⟨1, "unexpected token: 5, expected an opcode"⟩] := by
      decide +kernel
    rw [Product.diagnostics, if_neg (by decide), raised]
    simp [Diagnostics.sorted, List.mergeSort]
  have codeRaised : Product.machineCode.diagnostics "5 @\nADD\n" =
      [⟨0, "instruction ADD expects 3 operands, but got 0"⟩, ⟨1, "unexpected character: '@'"⟩,
        ⟨1, "unexpected token: 5, expected an opcode"⟩] := by
    have raised : raisedDiagnostics "5 @\nADD\n" =
        [⟨1, "unexpected character: '@'"⟩, ⟨1, "unexpected token: 5, expected an opcode"⟩,
          ⟨0, "instruction ADD expects 3 operands, but got 0"⟩] := by
      decide +kernel
    rw [Product.diagnostics, assemble_of_nonempty (by decide)]
    simp [raised, Diagnostics.sorted, List.mergeSort]
  obtain ⟨tokensDelivered, instructionsDelivered, codeDelivered, _⟩ :=
    products_agree .off tokensAsked instructionsAsked codeAsked readable
  have lines : (assemble "5 @\nADD\n").lines = ["ERROR"] := by decide +kernel
  rw [tokensRaised] at tokensDelivered
  rw [instructionsRaised] at instructionsDelivered
  rw [codeRaised, lines] at codeDelivered
  -- the run that shows its product leaves the source to be quoted
  have untouched : filesAfter .off files tokensShown = files := by
    rw [filesAfter, run_of_shown tokensAsked.accepted readable rfl]
  obtain ⟨quoted, found, tokensReported⟩ := tokensDelivered.reported
  rw [untouched, readable] at found
  cases found
  obtain ⟨_, _, instructionsReported⟩ := instructionsDelivered.reported
  obtain ⟨_, _, codeReported⟩ := codeDelivered.reported
  obtain ⟨instructionsSilent, instructionsText⟩ := instructionsDelivered.written "i.json" rfl
  obtain ⟨codeSilent, codeText⟩ := codeDelivered.written "p.bin" rfl
  refine ⟨tokensAsked, instructionsAsked, codeAsked, readable, ?tokens, ?instructions,
    instructionsText.trans ?text, ?code, codeText⟩
  case tokens =>
    apply Outcome.ext tokensDelivered.status
    · exact (tokensDelivered.shown rfl).trans (by decide +kernel)
    · exact (tokensReported.human rfl).trans (by decide +kernel)
  case instructions =>
    apply Outcome.ext instructionsDelivered.status instructionsSilent
    exact (instructionsReported.json rfl).1.trans (by decide +kernel)
  case text => exact congrArg Except.ok (by decide +kernel)
  case code =>
    apply Outcome.ext codeDelivered.status codeSilent
    exact (codeReported.plain rfl).trans (by decide +kernel)

end RiscAssembler.CommandLine
