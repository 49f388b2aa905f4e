import C0.Program
import C0.Proofs.Listing.Instructions
import C0.Proofs.Listing.Quoted
import Mathlib.Data.List.Forall2

namespace C0

/-- A text up to the first place of an element can be told from what comes after it. -/
theorem append_cons_inj {α : Type} {x : α} {run run' rest rest' : List α} (free : x ∉ run)
    (free' : x ∉ run') (same : run ++ x :: rest = run' ++ x :: rest') :
    run = run' ∧ rest = rest' := by
  rcases List.append_eq_append_iff.mp same with ⟨more, rfl, after⟩ | ⟨more, rfl, after⟩
  · cases more with
    | nil => simp_all
    | cons y more =>
      rw [List.cons_append, List.cons.injEq] at after
      simp [after.1] at free'
  · cases more with
    | nil => simp_all
    | cons y more =>
      rw [List.cons_append, List.cons.injEq] at after
      simp [after.1] at free

/-- Pieces that are each ended by an element that none of them has can be told apart. -/
theorem ended_injective {α : Type} {x : α} {pieces pieces' : List (List α)}
    (free : ∀ piece ∈ pieces, x ∉ piece) (free' : ∀ piece ∈ pieces', x ∉ piece)
    (same : pieces.flatMap (· ++ [x]) = pieces'.flatMap (· ++ [x])) : pieces = pieces' := by
  induction pieces generalizing pieces' with
  | nil =>
    cases pieces' with
    | nil => rfl
    | cons piece' pieces' => simp at same
  | cons piece pieces ih =>
    cases pieces' with
    | nil => simp at same
    | cons piece' pieces' =>
      obtain ⟨here, later⟩ := List.forall_mem_cons.mp free
      obtain ⟨here', later'⟩ := List.forall_mem_cons.mp free'
      simp only [List.flatMap_cons, List.append_assoc, List.singleton_append] at same
      obtain ⟨rfl, rest⟩ := append_cons_inj here here' same
      rw [ih later later' rest]

/-- Text that stands for itself in an interpolated text. -/
theorem toString_text (text : String) : toString text = text :=
  rfl

/-- Lines as a text, each with its line end. -/
def textOfLines (lines : List String) : String :=
  String.join (lines.map (· ++ "\n"))

theorem textOfLines_append (lines more : List String) :
    textOfLines (lines ++ more) = textOfLines lines ++ textOfLines more := by
  simp [textOfLines]

/-- A text can be split back into its lines. -/
theorem textOfLines_inj {lines lines' : List String} (plain : ∀ line ∈ lines, '\n' ∉ line.toList)
    (plain' : ∀ line ∈ lines', '\n' ∉ line.toList) (same : textOfLines lines = textOfLines lines') :
    lines = lines' := by
  have split (lines : List String) :
      (textOfLines lines).toList = (lines.map String.toList).flatMap (· ++ ['\n']) := by
    simp [textOfLines, String.toList_join, List.flatMap_map]
  have texts := congrArg String.toList same
  rw [split, split] at texts
  refine List.map_injective_iff.mpr (fun _ _ => String.toList_inj.mp)
    (ended_injective ?_ ?_ texts)
  · simpa using plain
  · simpa using plain'

namespace Routine

/-- The line that a listing of the function begins with. -/
def heading (routine : Routine) : String :=
  s!"fn [{routine.address}] {routine.locals} {routine.params.length} -> " ++
    s!"{routine.returnSlots} \x7b"

/-- The line of an instruction in a listing. -/
def bodyLine (instruction : Instruction) : String :=
  s!"    {instruction.render}"

/-- The lines of the function in a listing. -/
def block (routine : Routine) : List String :=
  routine.heading :: routine.code.toList.map bodyLine ++ ["\x7d"]

theorem render_eq (routine : Routine) : routine.render = textOfLines routine.block := by
  have opened : " \x7b\n" = " \x7b" ++ "\n" := by decide
  have closed : "\x7d\n" = "\x7d" ++ "\n" := by decide
  unfold render block heading
  simp only [opened, closed, toString_text]
  simp [textOfLines, bodyLine, String.append_assoc, Function.comp_def, toString_text]

/-- Two functions agree in everything that a listing tells of them. -/
structure Agrees (first second : Routine) : Prop where
  address : first.address = second.address
  locals : first.locals = second.locals
  params : first.params.length = second.params.length
  returnSlots : first.returnSlots = second.returnSlots
  code : first.code = second.code

theorem heading_inj {first second : Routine} (same : first.heading = second.heading) :
    first.address = second.address ∧ first.locals = second.locals ∧
      first.params.length = second.params.length ∧ first.returnSlots = second.returnSlots := by
  have bracket : ∀ rest, Stops Char.isDigit ("] " ++ rest).toList := stops_of_head rfl rfl
  have blank : ∀ rest, Stops Char.isDigit (" " ++ rest).toList := stops_of_head rfl rfl
  have arrow : ∀ rest, Stops Char.isDigit (" -> " ++ rest).toList := stops_of_head rfl rfl
  have brace : Stops Char.isDigit " \x7b".toList := by
    rintro _ ⟨⟩
    rfl
  simp only [heading, toString_text, String.append_assoc, String.append_right_inj] at same
  obtain ⟨address, same⟩ := number_append_inj (bracket _) (bracket _) same
  obtain ⟨locals, same⟩ :=
    number_append_inj (blank _) (blank _) ((String.append_right_inj _).mp same)
  obtain ⟨params, same⟩ :=
    number_append_inj (arrow _) (arrow _) ((String.append_right_inj _).mp same)
  obtain ⟨returnSlots, -⟩ := number_append_inj brace brace ((String.append_right_inj _).mp same)
  exact ⟨address, locals, params, returnSlots⟩

theorem block_inj {first second : Routine} (same : first.block = second.block) :
    first.Agrees second := by
  rw [block, block, List.cons_append, List.cons_append, List.cons.injEq,
    List.append_cancel_right_eq] at same
  obtain ⟨address, locals, params, returnSlots⟩ := heading_inj same.1
  refine ⟨address, locals, params, returnSlots, Array.toList_inj.mp ?_⟩
  refine List.map_injective_iff.mpr (fun left right line => ?_) same.2
  exact Instruction.render_injective ((String.append_right_inj _).mp line)

theorem heading_plain (routine : Routine) : '\n' ∉ routine.heading.toList := by
  simp only [heading, toString_text, String.toList_append, List.mem_append, toString_nat_plain,
    false_or, or_false]
  decide

theorem bodyLine_plain (instruction : Instruction) : '\n' ∉ (bodyLine instruction).toList := by
  simp only [bodyLine, toString_text, String.toList_append, List.mem_append,
    instruction.render_plain, or_false]
  decide

/-- The lines of a function have no line ends in them, and none of them is empty. -/
theorem block_plain (routine : Routine) :
    ∀ line ∈ routine.block, line ≠ "" ∧ '\n' ∉ line.toList := by
  have begun (first rest : String) (some : first ≠ "") : first ++ rest ≠ "" := by
    simp [some]
  intro line member
  simp only [block, List.mem_append, List.mem_cons, List.mem_map, List.not_mem_nil,
    or_false] at member
  rcases member with (rfl | ⟨instruction, _, rfl⟩) | rfl
  · refine ⟨?_, routine.heading_plain⟩
    simp only [heading, toString_text, String.append_assoc]
    exact begun _ _ (by decide)
  · exact ⟨begun _ _ (by decide), bodyLine_plain instruction⟩
  · exact ⟨by decide, by decide⟩

end Routine

/-- What a listing tells apart of entries before it comes to their names or values. -/
inductive EntryKind where
  | routine
  | global (constant : Bool)
  | library
  | text

/-- The word for a kind of entry in a listing. -/
def EntryKind.word : EntryKind → String
  | routine => "fn"
  | global true => "const"
  | global false => "var"
  | library => "lib"
  | text => "str"

theorem EntryKind.word_injective : Function.Injective word := by
  rintro (_ | ⟨_ | _⟩ | _ | _) (_ | ⟨_ | _⟩ | _ | _) same <;> first | rfl | simp [word] at same

theorem EntryKind.word_plain (kind : EntryKind) :
    ' ' ∉ kind.word.toList ∧ '\n' ∉ kind.word.toList := by
  rcases kind with _ | ⟨_ | _⟩ | _ | _ <;> decide

/-- What stands behind the kind of an entry in a listing. -/
def Entry.subject : Entry → String
  | routine name => name
  | global name => name
  | library function => function.name
  | text value => Text.quoted value

theorem Library.name_injective : Function.Injective name := by
  intro first second same
  have found (function : Library) : ofName? function.name = some function := by
    cases function <;> rfl
  exact Option.some.inj ((found first).symm.trans ((congrArg ofName? same).trans (found second)))

/-- Each entry fits on one line of a listing. -/
def Directory.Plain (directory : Directory) : Prop :=
  ∀ entry ∈ directory.entries, '\n' ∉ entry.subject.toList

namespace Program

/-- The kind of an entry of the directory. -/
def kindOf (program : Program) : Entry → EntryKind
  | .routine _ => .routine
  | .global name => .global (program.isConstant name)
  | .library _ => .library
  | .text _ => .text

/-- The kind and what stands behind it tell an entry. -/
theorem entry_inj {first second : Program} {entry other : Entry}
    (kinds : first.kindOf entry = second.kindOf other) (subjects : entry.subject = other.subject) :
    entry = other := by
  cases entry with
  | routine name =>
    cases other with
    | routine name' => exact congrArg Entry.routine subjects
    | _ => cases kinds
  | global name =>
    cases other with
    | global name' => exact congrArg Entry.global subjects
    | _ => cases kinds
  | library function =>
    cases other with
    | library function' => exact congrArg Entry.library (Library.name_injective subjects)
    | _ => cases kinds
  | text value =>
    cases other with
    | text value' => exact congrArg Entry.text (Text.quoted_injective subjects)
    | _ => cases kinds

/-- The line of an entry of the directory in a listing. -/
def entryLine (program : Program) (entry : Entry) (address : Nat) : String :=
  s!"static [{address}] {(program.kindOf entry).word} {entry.subject}"

/-- The lines of the directory in a listing. -/
def entryLines (program : Program) : List String :=
  program.directory.entries.zipIdx.map fun (entry, address) => program.entryLine entry address

theorem renderEntry_eq (program : Program) (entry : Entry) (address : Nat) :
    program.renderEntry entry address = program.entryLine entry address ++ "\n" := by
  have spaced : "fn " = "fn" ++ " " ∧ "const " = "const" ++ " " ∧ "var " = "var" ++ " " ∧
      "lib " = "lib" ++ " " ∧ "str " = "str" ++ " " := by decide
  unfold renderEntry entryLine
  cases entry with
  | global name =>
    simp only [kindOf, Entry.subject, toString_text]
    cases program.isConstant name <;>
      simp only [EntryKind.word, spaced, String.append_assoc, if_true, Bool.false_eq_true, if_false]
  | _ =>
    simp only [kindOf, EntryKind.word, Entry.subject, spaced, toString_text, String.append_assoc]

/-- The parts of a listing, which an empty line keeps apart. -/
def sections (program : Program) : List (List String) :=
  program.entryLines :: program.routines.map Routine.block

theorem render_eq (program : Program) :
    program.render ++ "\n" = textOfLines (program.sections.flatMap (· ++ [""])) := by
  have blank : textOfLines [""] = "\n" := by simp [textOfLines]
  have parts (lines : List String) : textOfLines lines ++
      String.join (program.routines.map fun routine => "\n" ++ routine.render) ++ "\n" =
        textOfLines ((lines :: program.routines.map Routine.block).flatMap (· ++ [""])) := by
    induction program.routines generalizing lines with
    | nil => simp [textOfLines_append, blank]
    | cons routine routines ih =>
      rw [List.map_cons, String.join_cons, List.map_cons, List.flatMap_cons, textOfLines_append,
        ← ih, textOfLines_append, blank, Routine.render_eq]
      simp only [String.append_assoc]
  have entries : String.join (program.directory.entries.zipIdx.map fun (entry, address) =>
      program.renderEntry entry address) = textOfLines program.entryLines := by
    simp only [renderEntry_eq, textOfLines, entryLines, List.map_map, Function.comp_def]
  rw [render, entries]
  exact parts program.entryLines

/-- A line of the directory tells the entry and its kind. -/
theorem entryLine_inj {first second : Program} {entry other : Entry} {address place : Nat}
    (same : first.entryLine entry address = second.entryLine other place) :
    first.kindOf entry = second.kindOf other ∧ entry = other := by
  have bracket : ∀ rest, Stops Char.isDigit ("] " ++ rest).toList := stops_of_head rfl rfl
  simp only [entryLine, toString_text, String.append_assoc, String.append_right_inj] at same
  obtain ⟨-, rest⟩ := number_append_inj (bracket _) (bracket _) same
  have described := congrArg String.toList ((String.append_right_inj _).mp rest)
  simp only [String.toList_append] at described
  obtain ⟨words, subjects⟩ :=
    append_cons_inj (EntryKind.word_plain _).1 (EntryKind.word_plain _).1 described
  have kinds := EntryKind.word_injective (String.toList_inj.mp words)
  exact ⟨kinds, entry_inj kinds (String.toList_inj.mp subjects)⟩

theorem entryLine_plain {program : Program} {entry : Entry} (address : Nat)
    (plain : '\n' ∉ entry.subject.toList) : program.entryLine entry address ≠ "" ∧
      '\n' ∉ (program.entryLine entry address).toList := by
  have word (kind : EntryKind) : '\n' ∉ kind.word.toList := kind.word_plain.2
  constructor
  · simp [entryLine]
  · simp only [entryLine, toString_text, String.toList_append, List.mem_append, toString_nat_plain,
      word, plain, or_false]
    decide

/-- The lines of the directory tell its entries and which globals are constant. -/
theorem entryLines_inj {first second : Program} (same : first.entryLines = second.entryLines) :
    first.directory = second.directory ∧ ∀ name, .global name ∈ first.directory.entries →
      first.isConstant name = second.isConstant name := by
  have lineAt (program : Program) (i : Nat) : program.entryLines[i]? =
      program.directory.entries[i]?.map fun entry => program.entryLine entry i := by
    simp [entryLines, List.getElem?_zipIdx, Function.comp_def]
  have entriesAt (i : Nat) : first.directory.entries[i]? = second.directory.entries[i]? ∧
      ∀ entry, first.directory.entries[i]? = some entry →
        first.kindOf entry = second.kindOf entry := by
    have lines := congrArg (·[i]?) same
    simp only [lineAt] at lines
    cases here : first.directory.entries[i]? with
    | none =>
      cases there : second.directory.entries[i]? with
      | none => exact ⟨rfl, nofun⟩
      | some other => simp [here, there] at lines
    | some entry =>
      cases there : second.directory.entries[i]? with
      | none => simp [here, there] at lines
      | some other =>
        simp only [here, there, Option.map_some, Option.some.injEq] at lines
        obtain ⟨kinds, rfl⟩ := entryLine_inj lines
        exact ⟨rfl, fun _ found => Option.some.inj found ▸ kinds⟩
  refine ⟨?_, fun name member => ?_⟩
  · exact congrArg Directory.mk (List.ext_getElem? fun i => (entriesAt i).1)
  · obtain ⟨i, here⟩ := List.mem_iff_getElem?.mp member
    exact EntryKind.global.inj ((entriesAt i).2 _ here)

/-- The lines of a listing have no line ends in them, and none of them is empty. -/
theorem sections_plain {program : Program} (plain : program.directory.Plain) :
    ∀ lines ∈ program.sections, ∀ line ∈ lines, line ≠ "" ∧ '\n' ∉ line.toList := by
  refine List.forall_mem_cons.mpr ⟨fun line member => ?_, fun lines member => ?_⟩
  · obtain ⟨⟨entry, address⟩, among, rfl⟩ := List.mem_map.mp member
    exact entryLine_plain address (plain entry (List.fst_mem_of_mem_zipIdx among))
  · obtain ⟨routine, _, rfl⟩ := List.mem_map.mp member
    exact routine.block_plain

/-- A listing can be split back into its parts and these into their lines. -/
theorem sections_inj {first second : Program}
    (plain : first.directory.Plain) (plain' : second.directory.Plain)
    (same : first.render = second.render) : first.sections = second.sections := by
  have lines {program : Program} (plain : program.directory.Plain) :
      ∀ line ∈ program.sections.flatMap (· ++ [""]), '\n' ∉ line.toList := by
    intro line member
    obtain ⟨part, among, here⟩ := List.mem_flatMap.mp member
    rcases List.mem_append.mp here with inside | last
    · exact (sections_plain plain part among line inside).2
    · rw [List.mem_singleton.mp last]
      decide
  -- With one more line end, every part ends in an empty line, and no part has one before that.
  have split : textOfLines (first.sections.flatMap (· ++ [""])) =
      textOfLines (second.sections.flatMap (· ++ [""])) := by
    rw [← render_eq, ← render_eq, same]
  refine ended_injective (fun part among member => ?_) (fun part among member => ?_)
    (textOfLines_inj (lines plain) (lines plain') split)
  · exact (sections_plain plain part among "" member).1 rfl
  · exact (sections_plain plain' part among "" member).1 rfl

/-- A listing tells the directory, which globals are constant, and of each function all that its
lines say. -/
theorem listing_inj {first second : Program}
    (plain : first.directory.Plain) (plain' : second.directory.Plain)
    (same : first.render = second.render) : first.directory = second.directory ∧
      (∀ name, .global name ∈ first.directory.entries →
        first.isConstant name = second.isConstant name) ∧
      List.Forall₂ Routine.Agrees first.routines second.routines := by
  obtain ⟨entries, blocks⟩ := List.cons.inj (sections_inj plain plain' same)
  obtain ⟨directory, constants⟩ := entryLines_inj entries
  refine ⟨directory, constants, ?_⟩
  have lines : List.Forall₂ (fun block block' => block = block')
      (first.routines.map Routine.block) (second.routines.map Routine.block) := by
    rw [List.forall₂_eq_eq_eq, blocks]
  rw [List.forall₂_map_left_iff, List.forall₂_map_right_iff] at lines
  exact lines.imp fun _ _ => Routine.block_inj

end Program

end C0
