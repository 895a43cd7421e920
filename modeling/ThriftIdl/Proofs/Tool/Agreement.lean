import ThriftIdl.Proofs.Grammar.Declarations
import ThriftIdl.Proofs.Tool.Outcome

/-!
# Validation and conversion agree

A file that is the only one to be validated is validated whatever its extension is, and nothing is
skipped. So the validation of a file and its conversion to JSON have the same verdict on it: both
succeed, and the validation counts what the conversion shows, or both fail for the same reason.
-/

namespace ThriftIdl

/-! ### The entries of a converted document -/

namespace Json

/-- The names of the members of an object. -/
def memberNames : Json → List String
  | .object members => members.map Prod.fst
  | _ => []

/-- The names of the members of the members of an object, each with that of the member around it. -/
def entries : Json → List (String × String)
  | .object members => members.flatMap fun member =>
    member.2.memberNames.map fun name => (member.1, name)
  | _ => []

end Json

namespace Document

variable (document : Document)

theorem entries_toJson :
    document.toJson.entries = Kind.all.flatMap fun kind =>
      (document.names kind).map fun name => (kind.keyword, name) := by
  rw [toJson, Json.entries, List.flatMap_assoc]
  congr 1
  funext kind
  unfold kindToJson
  split_ifs with isEmpty
  · have noNames : document.names kind = [] :=
      List.map_eq_nil_iff.2 (List.isEmpty_iff.1 isEmpty)
    rw [noNames]
    rfl
  · simp [Table.toJson, Json.memberNames, names, Table.names, Table.namesOf]

/-- A document is as large as it has kinds and names in its JSON form. -/
theorem length_entries_toJson : document.toJson.entries.length = document.size := by
  simp [entries_toJson, Kind.all, size, Nat.add_assoc]

/-- No kind and name are twice in the JSON form of a document. -/
theorem nodup_entries_toJson : document.toJson.entries.Nodup := by
  rw [entries_toJson, List.nodup_flatMap]
  constructor
  · intro kind _
    refine List.Nodup.map ?_ (document.table kind).distinct
    intro name other same
    exact (Prod.mk.inj same).2
  · refine Kind.nodup_all.imp ?_
    intro kind other differ entry mem memOther
    rcases List.mem_map.1 mem with ⟨_, _, rfl⟩
    rcases List.mem_map.1 memOther with ⟨_, _, same⟩
    exact differ (Grammar.keyword_injective (Prod.mk.inj same).1).symm

end Document

/-! ### One file -/

variable {disk : Disk} {path canonicalPath : String} {content : List UInt8}

/-- A report on the conversion of a file depends on the verdict on it alone. -/
theorem ToJson.run_file (request : ToJson)
    (isFile : disk request.file = .ok ⟨canonicalPath, .file content⟩) :
    (request.run disk).succeeded =
        (FileVerdict.ofBytes request.keepAnnotations content).document?.isSome ∧
      (request.run disk).text =
        match FileVerdict.ofBytes request.keepAnnotations content with
        | .notText fault => Report.failureMark ++ " " ++
          (ContentError.notText request.file content fault).message
        | .invalid error => Report.failureMark ++ " " ++ error.detailed (some request.file)
        | .valid document => request.render document := by
  have loaded : disk.read request.file = (FileNode.file content).text request.file := by
    rw [Disk.read, isFile]
  rcases FileVerdict.cases_ofBytes request.keepAnnotations content request.file with
    ⟨fault, text, isVerdict⟩ | ⟨source, error, text, read, isVerdict⟩ |
      ⟨source, document, text, read, isVerdict⟩
  · have isRun : request.run disk = ⟨false, Report.failureMark ++ " " ++
        (ContentError.notText request.file content fault).message, []⟩ := by
      simp only [run, loaded, text]
    rw [isRun, isVerdict]
    exact ⟨rfl, rfl⟩
  · have isRun : request.run disk = ⟨false,
        Report.failureMark ++ " " ++ error.detailed (some request.file), request.log source⟩ := by
      simp only [run, loaded, text, convert, reading, read]
    rw [isRun, isVerdict]
    exact ⟨rfl, rfl⟩
  · have isRun : request.run disk = ⟨true, request.render document, request.log source⟩ := by
      simp only [run, loaded, text, convert, reading, read]
    rw [isRun, isVerdict]
    exact ⟨rfl, rfl⟩

/-- A file that is the only path is selected, and no file is skipped. -/
theorem Validate.exists_search_file {request : Validate} (only : request.paths = [path])
    (isFile : disk path = .ok ⟨canonicalPath, .file content⟩) :
    ∃ log, request.search disk = ⟨[⟨canonicalPath, content⟩], 0, [], log⟩ := by
  have found : walk disk path = .ok [⟨path, canonicalPath, some content⟩] := by
    rw [walk, isFile]
    rfl
  have isOnly : request.onlyFile? disk = some (path, ⟨canonicalPath, content⟩) := by
    rw [onlyFile?, only]
    simp only [isFile]
  simp only [search, searchAlong, searchWalks, orOnlyFile, only, List.map_cons, List.map_nil, found,
    searchWalk, searchVisit, isOnly]
  split_ifs
  · exact ⟨_, rfl⟩
  · exact ⟨_, rfl⟩

/-- A report on the validation of a file depends on the verdict on it alone. -/
theorem Validate.run_file (request : Validate) (only : request.paths = [path])
    (isFile : disk path = .ok ⟨canonicalPath, .file content⟩) :
    (request.run disk).succeeded =
        (FileVerdict.ofBytes request.keepAnnotations content).document?.isSome ∧
      (request.run disk).text =
        match FileVerdict.ofBytes request.keepAnnotations content with
        | .notText fault => failureText 1 1 ["failed to load " ++ Quoted.text canonicalPath ++ ": "
          ++ (ContentError.notText canonicalPath content fault).messageWithCause]
        | .invalid error => failureText 1 1 [error.detailed (some canonicalPath)]
        | .valid document => successText 1 0 document.size := by
  rcases exists_search_file only isFile with ⟨log, found⟩
  have checked := request.checkFile_eq ⟨canonicalPath, content⟩
  rw [verdict] at checked
  rw [run, found]
  cases isVerdict : FileVerdict.ofBytes request.keepAnnotations content with
  | notText fault =>
      rw [isVerdict] at checked
      simp [report, checked, errorOf?, FileVerdict.document?]
  | invalid error =>
      rw [isVerdict] at checked
      simp [report, checked, errorOf?, FileVerdict.document?]
  | valid document =>
      rw [isVerdict] at checked
      simp [report, checked, errorOf?, countOf, FileVerdict.document?]

/--
The validation of a file alone and its conversion to JSON both succeed or both fail. If both
succeed, the validation counts the kinds and names in the JSON form, each of which is there once. If
both fail since the text cannot be read, they show the same error, each under its path of the file.
-/
theorem Validate.run_agrees_with_conversion (extensions : List String) (keep compact : Bool)
    (isFile : disk path = .ok ⟨canonicalPath, .file content⟩) :
    let validation := (⟨extensions, keep, [path]⟩ : Validate).run disk
    let conversion := (⟨compact, keep, path⟩ : ToJson).run disk
    (validation.succeeded = true ↔ conversion.succeeded = true) ∧
      (validation.succeeded = true → ∃ source document, Utf8.encode source = content ∧
        Document.parse (Annotations.prepare keep source) = .ok document ∧
        conversion.text = (⟨compact, keep, path⟩ : ToJson).render document ∧
        document.toJson.entries.Nodup ∧
        validation.text = successText 1 0 document.toJson.entries.length) ∧
      ∀ source error, Utf8.encode source = content →
        Document.parse (Annotations.prepare keep source) = .error error →
        validation.succeeded = false ∧ conversion.succeeded = false ∧
          conversion.text = Report.failureMark ++ " " ++ error.detailed (some path) ∧
          validation.text = failureText 1 1 [error.detailed (some canonicalPath)] := by
  intro validation conversion
  have validated := run_file ⟨extensions, keep, [path]⟩ rfl isFile
  have converted := ToJson.run_file ⟨compact, keep, path⟩ isFile
  refine ⟨?_, ?_, ?_⟩
  · rw [validated.1, converted.1]
  · intro succeeded
    rw [validated.1] at succeeded
    rcases Option.isSome_iff_exists.1 succeeded with ⟨document, isDocument⟩
    have isVerdict : FileVerdict.ofBytes keep content = .valid document :=
      FileVerdict.document?_eq_some_iff.1 isDocument
    rcases FileVerdict.ofBytes_eq_valid_iff.1 isVerdict with ⟨source, encoded, parsed⟩
    refine ⟨source, document, encoded, parsed, ?_, document.nodup_entries_toJson, ?_⟩
    · simpa only [isVerdict] using converted.2
    · rw [document.length_entries_toJson]
      simpa only [isVerdict] using validated.2
  · intro source error encoded parsed
    have isVerdict : FileVerdict.ofBytes keep content = .invalid error := by
      rw [← encoded, FileVerdict.ofBytes_encode]
      exact FileVerdict.ofText_eq_invalid_iff.2 parsed
    simp only [isVerdict, FileVerdict.document?, Option.isSome_none] at validated converted
    exact ⟨validated.1, converted.1, converted.2, validated.2⟩

/-- A service in a file with another extension, and a constant without `=`. -/
theorem Validate.run_agrees_with_conversion_tree :
    let disk := FileNode.disk "/tmp" (.directory
      [("service.idl", .file (Utf8.encode "service S \x7b void ping() \x7d")),
        ("constant.thrift", .file (Utf8.encode "const i32 X 1"))])
    let error : ParseError := ⟨"expected `=`, found `1`", "1", 1, .structural⟩
    (∃ document : Document,
      ((⟨false, false, "service.idl"⟩ : ToJson).run disk).text = document.toJson.pretty ∧
        ((⟨["thrift"], false, ["service.idl"]⟩ : Validate).run disk).text =
          successText 1 0 document.toJson.entries.length) ∧
      ((⟨false, false, "constant.thrift"⟩ : ToJson).run disk).text =
        Report.failureMark ++ " " ++ error.detailed (some "constant.thrift") ∧
      ((⟨["thrift"], false, ["constant.thrift"]⟩ : Validate).run disk).text =
        failureText 1 1 [error.detailed (some "/tmp/constant.thrift")] := by
  intro disk error
  have service : disk "service.idl" = .ok ⟨"/tmp/service.idl",
      .file (Utf8.encode "service S \x7b void ping() \x7d")⟩ := by cbv
  have constant : disk "constant.thrift" = .ok ⟨"/tmp/constant.thrift",
      .file (Utf8.encode "const i32 X 1")⟩ := by cbv
  rcases run_agrees_with_conversion ["thrift"] false false service with ⟨_, counted, _⟩
  rcases counted (by decide +kernel) with ⟨_, document, _, _, converted, _, validated⟩
  rcases run_agrees_with_conversion ["thrift"] false false constant with ⟨_, _, explained⟩
  rcases explained "const i32 X 1" error rfl (by decide +kernel) with ⟨_, _, shown, reported⟩
  exact ⟨⟨document, converted, validated⟩, shown, reported⟩

end ThriftIdl
