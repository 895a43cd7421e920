import ThriftIdl.Proofs.Text.Utf8
import ThriftIdl.Tool.ToJson
import ThriftIdl.Tool.Validate

/-!
# What becomes of a file

The bytes of a file are no text, or a text that cannot be read, or a text with a document. Commands
say nothing of a file that does not depend on this verdict. A validation counts how many of the
files it has found are invalid and how many declarations the others hold.
-/

namespace ThriftIdl

/-- What becomes of the bytes of a file. -/
inductive FileVerdict where
  /-- They stop being a text at a fault. -/
  | notText (fault : Utf8.Fault)
  /-- They are a text that cannot be read. -/
  | invalid (error : ParseError)
  /-- They are a text with a document. -/
  | valid (document : Document)

namespace FileVerdict

/-- The verdict on a text. -/
def ofText (keep : Bool) (source : String) : FileVerdict :=
  match Document.parse (Annotations.prepare keep source) with
  | .error error => invalid error
  | .ok document => valid document

/-- The verdict on the bytes of a file. -/
def ofBytes (keep : Bool) (content : List UInt8) : FileVerdict :=
  match Utf8.decode content with
  | .error fault => notText fault
  | .ok characters => ofText keep (String.ofList characters)

/-- The document of a valid file. -/
def document? : FileVerdict → Option Document
  | .valid document => some document
  | .notText _ | .invalid _ => none

theorem document?_eq_some_iff {verdict : FileVerdict} {document : Document} :
    verdict.document? = some document ↔ verdict = valid document := by
  cases verdict <;> simp [document?]

variable {keep : Bool} {content : List UInt8} {source : String}

theorem ofText_eq_valid_iff {document : Document} :
    ofText keep source = valid document ↔
      Document.parse (Annotations.prepare keep source) = .ok document := by
  unfold ofText
  cases Document.parse (Annotations.prepare keep source) <;> simp

theorem ofText_eq_invalid_iff {error : ParseError} :
    ofText keep source = invalid error ↔
      Document.parse (Annotations.prepare keep source) = .error error := by
  unfold ofText
  cases Document.parse (Annotations.prepare keep source) <;> simp

theorem ofBytes_encode : ofBytes keep (Utf8.encode source) = ofText keep source := by
  rw [ofBytes, Utf8.decode_encode]
  exact congrArg (ofText keep) String.ofList_toList

/-- A file is valid with the document of the text that its bytes encode. -/
theorem ofBytes_eq_valid_iff {document : Document} :
    ofBytes keep content = valid document ↔ ∃ source, Utf8.encode source = content ∧
      Document.parse (Annotations.prepare keep source) = .ok document := by
  constructor
  · intro isValid
    unfold ofBytes at isValid
    split at isValid
    · cases isValid
    · next characters decoded =>
        exact ⟨_, Utf8.encode_ofList_of_decode decoded, ofText_eq_valid_iff.1 isValid⟩
  · rintro ⟨source, rfl, parsed⟩
    exact ofBytes_encode.trans (ofText_eq_valid_iff.2 parsed)

/-- Wherever a file is, loading and reading it come to the verdict on its bytes. -/
theorem cases_ofBytes (keep : Bool) (content : List UInt8) (path : String) :
    (∃ fault, (FileNode.file content).text path = .error (.notText path content fault) ∧
        ofBytes keep content = notText fault) ∨
      (∃ source error, (FileNode.file content).text path = .ok source ∧
        (Reading.ofSource (Annotations.prepare keep source) 0).document = .error error ∧
        ofBytes keep content = invalid error) ∨
      ∃ source document, (FileNode.file content).text path = .ok source ∧
        (Reading.ofSource (Annotations.prepare keep source) 0).document = .ok document ∧
        ofBytes keep content = valid document := by
  cases decoded : Utf8.decode content with
  | error fault =>
      have text : (FileNode.file content).text path = .error (.notText path content fault) := by
        simp only [FileNode.text, decoded]
      exact .inl ⟨fault, text, by rw [ofBytes, decoded]⟩
  | ok characters =>
      have text : (FileNode.file content).text path = .ok (String.ofList characters) := by
        simp only [FileNode.text, decoded]
      have verdict : ofBytes keep content = ofText keep (String.ofList characters) := by
        rw [ofBytes, decoded]
      right
      cases parsed : Document.parse (Annotations.prepare keep (String.ofList characters)) with
      | error error =>
          exact .inl ⟨_, error, text, parsed, verdict.trans (ofText_eq_invalid_iff.2 parsed)⟩
      | ok document =>
          exact .inr ⟨_, document, text, parsed, verdict.trans (ofText_eq_valid_iff.2 parsed)⟩

end FileVerdict

namespace Validate

variable (request : Validate)

/-- The verdict on a selected file. -/
def verdict (file : SelectedFile) : FileVerdict :=
  .ofBytes request.keepAnnotations file.content

/-- A file has a text, and the text is read as a document. -/
def Holds (file : SelectedFile) (document : Document) : Prop :=
  ∃ source, Utf8.encode source = file.content ∧
    Document.parse (Annotations.prepare request.keepAnnotations source) = .ok document

/-- A file has a text that can be read. -/
def IsValid (file : SelectedFile) : Prop := ∃ document, request.Holds file document

variable {request} in
theorem verdict_eq_valid_iff {file : SelectedFile} {document : Document} :
    request.verdict file = .valid document ↔ request.Holds file document :=
  FileVerdict.ofBytes_eq_valid_iff

variable {request} in
theorem isValid_iff {file : SelectedFile} :
    request.IsValid file ↔ (request.verdict file).document?.isSome = true := by
  rw [Option.isSome_iff_exists, IsValid]
  simp only [FileVerdict.document?_eq_some_iff, verdict_eq_valid_iff]

instance : DecidablePred request.IsValid := fun _ => decidable_of_iff _ isValid_iff.symm

/-- The invalid ones of some files. -/
def failing (files : List SelectedFile) : List SelectedFile :=
  files.filter fun file => ¬request.IsValid file

/-- The documents of the valid ones of some files. -/
def documents (files : List SelectedFile) : List Document :=
  files.filterMap fun file => (request.verdict file).document?

variable {request} in
theorem failing_eq_nil_iff {files : List SelectedFile} :
    request.failing files = [] ↔ ∀ file ∈ files, request.IsValid file := by
  simp [failing]

variable {request} in
/-- Valid files hold their documents one by one. -/
theorem forall₂_documents {files : List SelectedFile}
    (valid : ∀ file ∈ files, request.IsValid file) :
    List.Forall₂ request.Holds files (request.documents files) := by
  induction files with
  | nil => exact .nil
  | cons file others ih =>
      rcases valid file List.mem_cons_self with ⟨document, holds⟩
      have isDocument : (request.verdict file).document? = some document :=
        FileVerdict.document?_eq_some_iff.2 (verdict_eq_valid_iff.2 holds)
      have one : request.documents (file :: others) = document :: request.documents others := by
        simp only [documents, List.filterMap_cons, isDocument]
      rw [one]
      exact .cons holds (ih fun other mem => valid other (List.mem_cons_of_mem _ mem))

/-- The outcome for a file depends on the verdict on it alone. -/
theorem checkFile_eq (file : SelectedFile) :
    (request.checkFile file).1 =
      match request.verdict file with
      | .notText fault =>
        .error ("failed to load " ++ Quoted.text file.canonicalPath ++ ": "
          ++ (ContentError.notText file.canonicalPath file.content fault).messageWithCause)
      | .invalid error => .error (error.detailed (some file.canonicalPath))
      | .valid document => .ok document.size := by
  rcases FileVerdict.cases_ofBytes request.keepAnnotations file.content file.canonicalPath with
    ⟨fault, text, isVerdict⟩ | ⟨source, error, text, read, isVerdict⟩ |
      ⟨source, document, text, read, isVerdict⟩
  · simp only [checkFile, text, verdict, isVerdict]
  · simp only [checkFile, text, reading, read, verdict, isVerdict]
  · simp only [checkFile, text, reading, read, verdict, isVerdict]

/-- What is said of a file, if it is invalid. -/
def complaint? (file : SelectedFile) : Option String := errorOf? (request.checkFile file).1

/-- All that there is to say of the paths and files that were found. -/
def complaints (found : Search) : List String :=
  (found.missing.map fun (path, missing) => missingMessage path missing)
    ++ found.selected.filterMap request.complaint?

theorem isSome_complaint? (file : SelectedFile) :
    (request.complaint? file).isSome = decide (¬request.IsValid file) := by
  simp only [complaint?, checkFile_eq, isValid_iff]
  cases request.verdict file <;> rfl

theorem countOf_checkFile (file : SelectedFile) :
    countOf (request.checkFile file).1 =
      ((request.verdict file).document?.map Document.size).getD 0 := by
  rw [checkFile_eq]
  cases request.verdict file <;> rfl

/-- There is one complaint about each invalid file. -/
theorem length_filterMap_complaint? (files : List SelectedFile) :
    (files.filterMap request.complaint?).length = (request.failing files).length := by
  rw [List.length_filterMap_eq_countP, failing, ← List.countP_eq_length_filter]
  congr 1
  funext file
  exact request.isSome_complaint? file

theorem length_complaints (found : Search) :
    (request.complaints found).length =
      found.missing.length + (request.failing found.selected).length := by
  rw [complaints, List.length_append, List.length_map, length_filterMap_complaint?]

theorem complaints_eq_nil_iff {found : Search} :
    request.complaints found = [] ↔
      found.missing = [] ∧ request.failing found.selected = [] := by
  rw [← List.length_eq_zero_iff, length_complaints, Nat.add_eq_zero_iff, List.length_eq_zero_iff,
    List.length_eq_zero_iff]

theorem foldl_countOf (files : List SelectedFile) (start : Nat) :
    ((files.map request.checkFile).map Prod.fst).foldl
        (fun total outcome => total + countOf outcome) start =
      start + ((request.documents files).map Document.size).sum := by
  induction files generalizing start with
  | nil => rfl
  | cons file others ih =>
      simp only [List.map_cons, List.foldl_cons, ih, countOf_checkFile, documents,
        List.filterMap_cons]
      cases (request.verdict file).document? with
      | none => simp
      | some document => simp [Nat.add_assoc]

theorem filterMap_errorOf? (files : List SelectedFile) :
    ((files.map request.checkFile).map Prod.fst).filterMap errorOf? =
      files.filterMap request.complaint? := by
  rw [List.filterMap_map, List.filterMap_map]
  rfl

/-- Without anything to complain about, a report counts files and declarations. -/
theorem report_of_complaints_eq_nil {found : Search} (nothing : request.complaints found = []) :
    (request.report found).succeeded = true ∧
      (request.report found).text = successText found.selected.length found.skipped
        ((request.documents found.selected).map Document.size).sum := by
  have noErrors := nothing
  rw [complaints, ← filterMap_errorOf?] at noErrors
  have total := request.foldl_countOf found.selected 0
  rw [Nat.zero_add] at total
  unfold report
  simp only [noErrors, List.isEmpty_nil, if_true, total, and_self]

/-- Otherwise it says how many files are invalid, and all that there is to complain about. -/
theorem report_of_complaints_ne_nil {found : Search}
    (something : request.complaints found ≠ []) :
    (request.report found).succeeded = false ∧
      (request.report found).text = failureText (request.failing found.selected).length
        found.selected.length (request.complaints found) := by
  have failures := request.length_filterMap_complaint? found.selected
  have someErrors := List.isEmpty_eq_false_iff.2 something
  simp only [complaints, ← filterMap_errorOf?] at someErrors failures ⊢
  unfold report
  simp only [someErrors, failures, Bool.false_eq_true, if_false, and_self]

end Validate

end ThriftIdl
