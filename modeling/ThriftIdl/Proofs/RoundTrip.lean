import ThriftIdl.Proofs.Grammar.Locality
import ThriftIdl.Proofs.Printing.Declarations
import ThriftIdl.Proofs.Reading.Success

/-!
# Printing and reading again

A document that was read from any source has a canonical text, unless a double occurs in it, and
reading that text gives the document again: the same tables with their entries in the same order.
The source itself plays no further part. Each declaration that is left in the document was spelled
somewhere in it, so it can be printed, and it is read back from its line.
-/

namespace ThriftIdl

open Rule

variable {room : Nat}

/-- Declarations that were read can be printed line by line, and then they are read back. -/
theorem exists_prints_lines {declarations : List Declaration}
    (spells : ∀ declaration ∈ declarations, ∃ bytes rest,
      SpellsDeclaration room bytes declaration rest)
    (noDouble : declarations.any Declaration.hasDouble = false) :
    ∃ lines, declarations.mapM Print.declaration? = some lines ∧
      Repeats (SpellsDeclaration room)
        (Gap.rest (Utf8.encode (String.join (lines.map (· ++ "\n"))))) declarations [] := by
  rw [List.any_eq_false] at noDouble
  obtain ⟨lines, printed, related⟩ := exists_mapM fun declaration mem => by
    rcases spells declaration mem with ⟨_, _, ofDeclaration⟩
    exact ofDeclaration.exists_prints (by simpa using noDouble declaration mem)
  refine ⟨lines, printed, ?_⟩
  clear printed spells noDouble
  induction related with
  | nil => exact .nil []
  | @cons declaration line others lines prints _ ih =>
      have text : Utf8.encode (String.join ((line :: lines).map (· ++ "\n"))) =
          Utf8.encode line ++ Byte.lineFeed ::
            Utf8.encode (String.join (lines.map (· ++ "\n"))) := by
        simp only [List.map_cons, String.join_cons, Utf8.encode_append, List.append_assoc]
        rfl
      -- behind the line there is the end or another declaration, which begins with its keyword
      have ends : EndsItem (Byte.lineFeed :: Utf8.encode (String.join (lines.map (· ++ "\n")))) := by
        refine ⟨stops_cons.2 rfl, ?_⟩
        rw [Quiet, Gap.rest_lineFeed_cons]
        exact stops_of_declarations ih
      have first := prints _ ends
      rw [Gap.rest_lineFeed_cons] at first
      rw [text]
      exact .cons first ih

namespace Document

variable {source : String} {document : Document}

/--
Whatever source a document was read from, it has a canonical text if there is no double in it, and
it is what is read from that text.
-/
theorem parse_print (parsed : parse source = .ok document)
    (noDouble : document.hasDouble = false) :
    ∃ text, document.print? = some text ∧ parse text = .ok document := by
  rcases parse_eq_ok_iff.1 parsed with ⟨declarations, declares, rfl⟩
  have spells : ∀ declaration ∈ (ofList declarations).declarations, ∃ bytes rest,
      SpellsDeclaration Grammar.maxNesting bytes declaration rest := by
    intro declaration mem
    rcases declares.exists_step (mem_of_mem_declarations mem) with ⟨bytes, rest, found⟩
    exact ⟨bytes, rest, Grammar.read_declaration_iff.1 found⟩
  rcases exists_prints_lines spells noDouble with ⟨lines, printed, repeats⟩
  refine ⟨String.join (lines.map (· ++ "\n")), by rw [print?, printed]; rfl, ?_⟩
  refine parse_eq_ok_iff.2 ⟨(ofList declarations).declarations, ?_, ?_⟩
  · exact repeats.imp fun _ _ _ => Grammar.read_declaration_iff.2
  · exact (ofList_declarations_ofList declarations).symm

/--
A container word and a keyword as names, a reference that begins like a number, and a string with
both sorts of quotes in it.
-/
theorem parse_print_names :
    let canonical := "typedef set<list> required\n" ++
      "const map C = \x7b'it\\'s \"so\"': 1.2.3 . a\x7d\n"
    ∃ document : Document,
      parse ("const map C = \x7b 'it\\'s \"so\"' : 1.2.3 . a; \x7d # a constant\n" ++
          "typedef set < list > required;") = .ok document ∧
        document.hasDouble = false ∧
          document.print? = some canonical ∧ parse canonical = .ok document := by
  intro canonical
  have parsed : parse ("const map C = \x7b 'it\\'s \"so\"' : 1.2.3 . a; \x7d # a constant\n" ++
      "typedef set < list > required;") =
        .ok (ofList [⟨.typedef, "required", FieldType.set (.named "list")⟩,
          ⟨.constant, "C",
            ⟨.named "map", .map [(.string "it\\'s \"so\"", .reference ["1.2.3", "a"])]⟩⟩]) := by
    decide +kernel
  refine ⟨_, parsed, by decide +kernel, ?_⟩
  rcases parse_print parsed (by decide +kernel) with ⟨text, printed, again⟩
  obtain rfl : text = canonical := Option.some.inj (printed.symm.trans (by decide +kernel))
  exact ⟨printed, again⟩

end Document

end ThriftIdl
