/-!
Contract: the mnemonics of the assembly language.

Owns:
- the closed set of mnemonics and the table of their upper-case names;
- the table by which a mnemonic is looked up under its exact name, which is another one.

Does not own: which mnemonics can be encoded, and how.

Main statement: `Mnemonic.ofName?_eq_some_iff`, neither table has an entry that the other lacks.
-/

namespace RiscAssembler

inductive Mnemonic where
  | add | sub | xor | or | and
  | addi | xori | ori | andi
  | lb | lh | lw
  | jalr
  | sb | sh | sw
  | beq | bne
  | jal
  | lui
  | fadd | fsub | fmul | fdiv | fmin | fmax | fsqrt
deriving DecidableEq, Repr

namespace Mnemonic

def name : Mnemonic → String
  | add => "ADD"
  | sub => "SUB"
  | xor => "XOR"
  | or => "OR"
  | and => "AND"
  | addi => "ADDI"
  | xori => "XORI"
  | ori => "ORI"
  | andi => "ANDI"
  | lb => "LB"
  | lh => "LH"
  | lw => "LW"
  | jalr => "JALR"
  | sb => "SB"
  | sh => "SH"
  | sw => "SW"
  | beq => "BEQ"
  | bne => "BNE"
  | jal => "JAL"
  | lui => "LUI"
  | fadd => "FADD"
  | fsub => "FSUB"
  | fmul => "FMUL"
  | fdiv => "FDIV"
  | fmin => "FMIN"
  | fmax => "FMAX"
  | fsqrt => "FSQRT"

/-- The mnemonic with exactly this name; letter case counts. -/
def ofName? : String → Option Mnemonic
  | "ADD" => some add
  | "SUB" => some sub
  | "XOR" => some xor
  | "OR" => some or
  | "AND" => some and
  | "ADDI" => some addi
  | "XORI" => some xori
  | "ORI" => some ori
  | "ANDI" => some andi
  | "LB" => some lb
  | "LH" => some lh
  | "LW" => some lw
  | "JALR" => some jalr
  | "SB" => some sb
  | "SH" => some sh
  | "SW" => some sw
  | "BEQ" => some beq
  | "BNE" => some bne
  | "JAL" => some jal
  | "LUI" => some lui
  | "FADD" => some fadd
  | "FSUB" => some fsub
  | "FMUL" => some fmul
  | "FDIV" => some fdiv
  | "FMIN" => some fmin
  | "FMAX" => some fmax
  | "FSQRT" => some fsqrt
  | _ => none

/-- Every name is looked up as the mnemonic that has it. -/
theorem ofName?_name (mnemonic : Mnemonic) : ofName? mnemonic.name = some mnemonic := by
  cases mnemonic <;> rfl

/-- What is looked up has the name under which it was found. -/
theorem name_of_ofName? {text : String} {mnemonic : Mnemonic}
    (found : ofName? text = some mnemonic) : mnemonic.name = text := by
  unfold ofName? at found
  split at found
  all_goals cases found
  all_goals rfl

/-- The two tables are inverse to each other. -/
theorem ofName?_eq_some_iff {text : String} {mnemonic : Mnemonic} :
    ofName? text = some mnemonic ↔ mnemonic.name = text := by
  constructor
  · exact name_of_ofName?
  · rintro rfl
    exact ofName?_name mnemonic

theorem name_injective {left right : Mnemonic} (equal : left.name = right.name) :
    left = right := by
  have found := ofName?_name left
  rw [equal, ofName?_name] at found
  exact (Option.some.inj found).symm

def all : List Mnemonic :=
  [add, sub, xor, or, and, addi, xori, ori, andi, lb, lh, lw, jalr, sb, sh, sw, beq, bne, jal,
    lui, fadd, fsub, fmul, fdiv, fmin, fmax, fsqrt]

theorem mem_all (mnemonic : Mnemonic) : mnemonic ∈ all := by
  cases mnemonic <;> decide

end Mnemonic

end RiscAssembler
