import ThriftIdl.Proofs.Tool.Outcome

/-!
# The order of a walk

The entries of a directory come in no particular order, and another walk may find them in another
order. Every walk comes to the same visits, though, and a search keeps account of the visits it has
made: it has selected the wanted files among them and skipped the others. So neither the verdict of
a validation nor its numbers depend on the walks.
-/

namespace ThriftIdl

namespace FileNode

/-! ### Walks through a tree -/

mutual

/-- The visits of a walk at and under a path, each directory before its entries in some order. -/
inductive Walked : String → String → FileNode → List Visit → Prop where
  | file {path canonicalPath : String} {content : List UInt8} :
    Walked path canonicalPath (.file content) [⟨path, canonicalPath, some content⟩]
  | directory {path canonicalPath : String} {entries order : List (String × FileNode)}
      {visits : List Visit} :
    order.Perm entries → WalkedEntries path canonicalPath order visits →
      Walked path canonicalPath (.directory entries) (⟨path, canonicalPath, none⟩ :: visits)

/-- The visits of a walk under a directory that takes the entries as they are given. -/
inductive WalkedEntries : String → String → List (String × FileNode) → List Visit → Prop where
  | nil {path canonicalPath : String} : WalkedEntries path canonicalPath [] []
  | cons {path canonicalPath name : String} {node : FileNode} {rest : List (String × FileNode)}
      {first others : List Visit} :
    Walked (Path.join path name) (Path.join canonicalPath name) node first →
      WalkedEntries path canonicalPath rest others →
        WalkedEntries path canonicalPath ((name, node) :: rest) (first ++ others)

end

theorem visitsOfEntries_eq_flatMap (path canonicalPath : String)
    (entries : List (String × FileNode)) :
    visitsOfEntries path canonicalPath entries = entries.flatMap fun entry =>
      visits (Path.join path entry.1) (Path.join canonicalPath entry.1) entry.2 := by
  induction entries with
  | nil => rfl
  | cons entry rest ih => rw [visitsOfEntries, ih, List.flatMap_cons]

mutual

/-- Every walk comes to the same visits. -/
theorem Walked.perm : ∀ {path canonicalPath : String} {node : FileNode} {found : List Visit},
    Walked path canonicalPath node found → found.Perm (node.visits path canonicalPath)
  | _, _, _, _, .file => by rw [visits]
  | path, canonicalPath, _, _, .directory reordered walked => by
      have sameEntries := reordered.flatMap_right fun entry =>
        visits (Path.join path entry.1) (Path.join canonicalPath entry.1) entry.2
      rw [← visitsOfEntries_eq_flatMap, ← visitsOfEntries_eq_flatMap] at sameEntries
      rw [visits]
      exact (walked.perm.trans sameEntries).cons _

theorem WalkedEntries.perm : ∀ {path canonicalPath : String}
    {entries : List (String × FileNode)} {found : List Visit},
    WalkedEntries path canonicalPath entries found →
      found.Perm (visitsOfEntries path canonicalPath entries)
  | _, _, _, _, .nil => by rw [visitsOfEntries]
  | _, _, _, _, .cons walkedFirst walkedRest => by
      rw [visitsOfEntries]
      exact walkedFirst.perm.append walkedRest.perm

end

mutual

/-- The entries may be taken in the order in which a directory has them. -/
theorem walked_visits (path canonicalPath : String) :
    ∀ node : FileNode, Walked path canonicalPath node (node.visits path canonicalPath)
  | .file _ => by
      rw [visits]
      exact .file
  | .directory entries => by
      rw [visits]
      exact .directory (List.Perm.refl _) (walkedEntries_visitsOfEntries path canonicalPath entries)

theorem walkedEntries_visitsOfEntries (path canonicalPath : String) :
    ∀ entries : List (String × FileNode),
      WalkedEntries path canonicalPath entries (visitsOfEntries path canonicalPath entries)
  | [] => by
      rw [visitsOfEntries]
      exact .nil
  | (name, node) :: rest => by
      rw [visitsOfEntries]
      exact .cons (walked_visits _ _ node) (walkedEntries_visitsOfEntries path canonicalPath rest)

end

/-- The file at a place that is visited. -/
def Visit.file? (visit : Visit) : Option SelectedFile :=
  visit.content.map fun content => ⟨visit.canonicalPath, content⟩

end FileNode

namespace Validate

open FileNode

variable (request : Validate) (disk : Disk)

/-- What a walk at and under a path may come to. -/
inductive IsWalk (path : String) : Walk → Prop where
  | nothing {missing : Missing} : disk path = .error missing → IsWalk path (.error missing)
  | visits {located : Located} {visits : List Visit} : disk path = .ok located →
    Walked path located.canonicalPath located.node visits → IsWalk path (.ok visits)

/-- Walks at and under the paths of a request. -/
structure AreWalks (walks : List (String × Walk)) : Prop where
  paths : walks.map Prod.fst = request.paths
  each : ∀ walk ∈ walks, IsWalk disk walk.1 walk.2

theorem isWalk_walk (path : String) : IsWalk disk path (walk disk path) := by
  unfold walk
  cases place : disk path with
  | error missing => exact .nothing place
  | ok located => exact .visits place (walked_visits _ _ _)

/-- The walks of a search are walks. -/
theorem areWalks_walk :
    request.AreWalks disk (request.paths.map fun path => (path, walk disk path)) where
  paths := by
    rw [List.map_map]
    exact List.map_id _
  each := by
    intro found mem
    rcases List.mem_map.1 mem with ⟨path, _, rfl⟩
    exact isWalk_walk disk path

/-! ### What there is to find -/

/-- The visits at and under a path, if there is something. -/
def visitsAt (path : String) : List Visit :=
  match disk path with
  | .ok located => located.node.visits path located.canonicalPath
  | .error _ => []

/-- The visits at and under all paths; what is under several of them is visited several times. -/
def visits : List Visit := request.paths.flatMap (visitsAt disk)

/-- The files that are visited. -/
def files : List SelectedFile := (request.visits disk).filterMap Visit.file?

/-- There is nothing at a path. -/
def leadsNowhere (path : String) : Bool := (disk path).toOption.isNone

/-- The paths that lead nowhere. -/
def absent : List String := request.paths.filter (leadsNowhere disk)

/-- The extension of a place is among those asked for, with or without dots in front of it. -/
def Wanted (visit : Visit) : Prop :=
  ∃ extension ∈ request.extensions,
    Path.fileExtension? visit.path = some (String.ofList (extension.toList.dropWhile (· == '.')))

instance : DecidablePred request.Wanted := fun _ => List.decidableBEx _ _

/-- The file at a place, if its extension is wanted. -/
def wanted? (visit : Visit) : Option SelectedFile :=
  if request.Wanted visit then visit.file? else none

/-- The files with a wanted extension, or a file that is the only path if there are none. -/
def selection : List SelectedFile :=
  match (request.visits disk).filterMap request.wanted? with
  | [] => ((request.onlyFile? disk).map Prod.snd).toList
  | wanted => wanted

variable {request disk}

theorem wants_iff {visit : Visit} : request.wants visit = true ↔ request.Wanted visit := by
  rw [wants, Option.any_eq_true]
  constructor
  · rintro ⟨extension, isExtension, wanted⟩
    rw [List.contains_iff_mem, plainExtensions, List.mem_eraseDups] at wanted
    rcases List.mem_map.1 wanted with ⟨text, mem, rfl⟩
    exact ⟨text, mem, isExtension⟩
  · rintro ⟨text, mem, isExtension⟩
    refine ⟨_, isExtension, ?_⟩
    rw [List.contains_iff_mem, plainExtensions, List.mem_eraseDups]
    exact List.mem_map_of_mem mem

theorem onlyFile?_eq_some_iff {path : String} {file : SelectedFile} :
    request.onlyFile? disk = some (path, file) ↔
      request.paths = [path] ∧ disk path = .ok ⟨file.canonicalPath, .file file.content⟩ := by
  unfold onlyFile?
  constructor
  · intro isOnly
    split at isOnly
    · next only paths =>
        split at isOnly
        · next canonicalPath content place =>
            cases isOnly
            exact ⟨paths, place⟩
        · cases isOnly
    · cases isOnly
  · rintro ⟨paths, place⟩
    simp only [paths, place]

/-! ### The account of a search -/

/-- A search has selected or skipped the files at the visits, and missed the paths to nowhere. -/
structure Accounts (request : Validate) (found : Search) (visits : List Visit)
    (absent : List String) : Prop where
  selected : found.selected.Perm (visits.filterMap request.wanted?)
  counted : found.selected.length + found.skipped = (visits.filterMap Visit.file?).length
  missing : found.missing.map Prod.fst = absent

namespace Accounts

theorem empty : Accounts request .empty [] [] := ⟨List.Perm.refl _, rfl, rfl⟩

theorem append {first second : Search} {visits others : List Visit} {absent further : List String}
    (account : Accounts request first visits absent)
    (other : Accounts request second others further) :
    Accounts request (first.append second) (visits ++ others) (absent ++ further) where
  selected := by
    rw [List.filterMap_append]
    exact account.selected.append other.selected
  counted := by
    rw [List.filterMap_append, List.length_append, ← account.counted, ← other.counted]
    simp only [Search.append, List.length_append]
    omega
  missing := by
    rw [← account.missing, ← other.missing]
    exact List.map_append

theorem perm {found : Search} {visits others : List Visit} {absent : List String}
    (account : Accounts request found visits absent) (reordered : visits.Perm others) :
    Accounts request found others absent where
  selected := account.selected.trans (reordered.filterMap _)
  counted := account.counted.trans (reordered.filterMap _).length_eq
  missing := account.missing

/-- One search for each item comes to an account of all items. -/
theorem foldl {α : Type} {search : α → Search} {visits : α → List Visit}
    {absent : α → List String} {items : List α}
    (each : ∀ item ∈ items, Accounts request (search item) (visits item) (absent item)) :
    Accounts request ((items.map search).foldl Search.append .empty) (items.flatMap visits)
      (items.flatMap absent) := by
  -- the account goes on from whatever has been found before
  suffices along : ∀ (start : Search) (before : List Visit) (nowhere : List String),
      Accounts request start before nowhere →
        Accounts request ((items.map search).foldl Search.append start)
          (before ++ items.flatMap visits) (nowhere ++ items.flatMap absent) from
    along _ _ _ empty
  induction items with
  | nil =>
      intro start before nowhere account
      simpa using account
  | cons item others ih =>
      intro start before nowhere account
      have further := ih (fun other mem => each other (List.mem_cons_of_mem _ mem)) _ _ _
        (account.append (each item List.mem_cons_self))
      rw [List.map_cons, List.foldl_cons, List.flatMap_cons, List.flatMap_cons]
      simpa only [List.append_assoc] using further

end Accounts

/-- A visit is accounted for: one file is selected or skipped, or there is none. -/
theorem accounts_searchVisit (visit : Visit) :
    Accounts request (request.searchVisit visit) [visit] [] := by
  unfold searchVisit
  cases content : visit.content with
  | none =>
      have noFile : visit.file? = none := by rw [Visit.file?, content]; rfl
      constructor <;> simp [wanted?, noFile]
  | some bytes =>
      have isFile : visit.file? = some ⟨visit.canonicalPath, bytes⟩ := by
        rw [Visit.file?, content]; rfl
      by_cases wanted : request.Wanted visit
      · simp only [wants_iff.2 wanted, if_true]
        constructor <;> simp [wanted?, isFile, wanted]
      · simp only [mt wants_iff.1 wanted]
        constructor <;> simp [wanted?, isFile, wanted]

theorem accounts_searchWalk {path : String} {walk : Walk} (isWalk : IsWalk disk path walk) :
    Accounts request (request.searchWalk path walk) (visitsAt disk path)
      ([path].filter (leadsNowhere disk)) := by
  cases isWalk with
  | nothing place =>
      have nowhere : leadsNowhere disk path = true := by rw [leadsNowhere, place]; rfl
      rw [visitsAt, place]
      constructor <;> simp [searchWalk, nowhere]
  | @visits located visits place walked =>
      have account : Accounts request (request.searchWalk path (.ok visits))
          (visits.flatMap fun visit => [visit]) (visits.flatMap fun _ => []) :=
        Accounts.foldl fun visit _ => accounts_searchVisit visit
      have somewhere : leadsNowhere disk path = false := by rw [leadsNowhere, place]; rfl
      rw [List.flatMap_singleton', List.flatMap_eq_nil_iff.2 fun _ _ => rfl] at account
      rw [visitsAt, place, List.filter_singleton, somewhere]
      exact account.perm walked.perm

theorem AreWalks.accounts {walks : List (String × Walk)} (areWalks : request.AreWalks disk walks) :
    Accounts request (request.searchWalks walks) (request.visits disk) (request.absent disk) := by
  have account : Accounts request (request.searchWalks walks)
      (walks.flatMap fun walk => visitsAt disk walk.1)
      (walks.flatMap fun walk => [walk.1].filter (leadsNowhere disk)) :=
    Accounts.foldl fun walk mem => accounts_searchWalk (areWalks.each walk mem)
  have visited : walks.flatMap (fun walk => visitsAt disk walk.1) = request.visits disk := by
    rw [visits, ← areWalks.paths, List.flatMap_map]
  have nowhere : walks.flatMap (fun walk => [walk.1].filter (leadsNowhere disk)) =
      request.absent disk := by
    rw [absent, ← areWalks.paths, List.map_eq_flatMap, List.filter_flatMap]
  rw [visited, nowhere] at account
  exact account

/-- A file that is the only path is the only file that is visited. -/
theorem files_of_onlyFile {path : String} {file : SelectedFile}
    (only : request.onlyFile? disk = some (path, file)) : request.files disk = [file] := by
  rcases onlyFile?_eq_some_iff.1 only with ⟨paths, place⟩
  simp [files, visits, visitsAt, paths, place, FileNode.visits, Visit.file?]

/-- If the only path is selected after all, it does not count as skipped any more. -/
theorem Accounts.orOnlyFile {found : Search} {absent : List String}
    (account : Accounts request found (request.visits disk) absent) :
    (request.orOnlyFile disk found).selected.Perm (request.selection disk) ∧
      (request.orOnlyFile disk found).selected.length + (request.orOnlyFile disk found).skipped =
        (request.files disk).length ∧
      (request.orOnlyFile disk found).missing = found.missing := by
  have selected := account.selected
  have counted : found.selected.length + found.skipped = (request.files disk).length :=
    account.counted
  unfold Validate.orOnlyFile selection
  cases isSelected : found.selected with
  | nil =>
      rw [isSelected] at selected counted
      rw [List.nil_perm.1 selected]
      cases only : request.onlyFile? disk with
      | none =>
          simp only [isSelected]
          exact ⟨List.Perm.refl _, counted, trivial⟩
      | some place =>
          rw [files_of_onlyFile only] at counted ⊢
          simp only [List.length_nil, List.length_singleton, Nat.zero_add] at counted
          simp only [counted]
          exact ⟨List.Perm.refl _, rfl, trivial⟩
  | cons file others =>
      rw [isSelected] at selected counted
      cases isWanted : (request.visits disk).filterMap request.wanted? with
      | nil =>
          rw [isWanted] at selected
          cases List.perm_nil.1 selected
      | cons =>
          rw [isWanted] at selected
          simp only [isSelected]
          exact ⟨selected, counted, trivial⟩

/-- Along all walks the same is selected, as much is skipped, and the same paths lead nowhere. -/
theorem AreWalks.search {walks : List (String × Walk)} (areWalks : request.AreWalks disk walks) :
    (request.searchAlong disk walks).selected.Perm (request.selection disk) ∧
      (request.selection disk).length + (request.searchAlong disk walks).skipped =
        (request.files disk).length ∧
      (request.searchAlong disk walks).missing.map Prod.fst = request.absent disk := by
  have account := areWalks.accounts
  rcases account.orOnlyFile with ⟨selected, counted, missing⟩
  refine ⟨selected, ?_, ?_⟩
  · rw [← selected.length_eq]
    exact counted
  · rw [← account.missing]
    exact congrArg (List.map Prod.fst) missing

theorem absent_eq_nil_iff :
    request.absent disk = [] ↔ ∀ path ∈ request.paths, ∃ located, disk path = .ok located := by
  rw [absent, List.filter_eq_nil_iff]
  refine forall₂_congr fun path _ => ?_
  cases place : disk path <;> simp [leadsNowhere, place, Except.toOption]

/-! ### The report -/

/-- What a report says of selected files, of a number of others and of paths that lead nowhere. -/
structure Reports (request : Validate) (report : Report) (selection : List SelectedFile)
    (skipped : Nat) (absent : List String) : Prop where
  verdict : report.succeeded = true ↔ absent = [] ∧ ∀ file ∈ selection, request.IsValid file
  success : report.succeeded = true → report.text = successText selection.length skipped
    ((request.documents selection).map Document.size).sum
  failure : report.succeeded = false → ∃ messages : List String,
    report.text = failureText (request.failing selection).length selection.length messages ∧
      messages.length = (request.failing selection).length + absent.length

/-- The order of the selected files plays no part. -/
theorem reports_of_perm {found : Search} {selection : List SelectedFile}
    (selected : found.selected.Perm selection) :
    Reports request (request.report found) selection found.skipped
      (found.missing.map Prod.fst) := by
  have analyzed := selected.length_eq
  have sameCount : (request.failing found.selected).length = (request.failing selection).length :=
    (selected.filter _).length_eq
  have counted : ((request.documents found.selected).map Document.size).sum =
      ((request.documents selection).map Document.size).sum :=
    ((selected.filterMap _).map _).sum_eq
  have valid : request.failing found.selected = [] ↔ ∀ file ∈ selection, request.IsValid file := by
    rw [← List.length_eq_zero_iff, sameCount, List.length_eq_zero_iff, failing_eq_nil_iff]
  have fine : request.complaints found = [] ↔
      found.missing.map Prod.fst = [] ∧ ∀ file ∈ selection, request.IsValid file := by
    rw [complaints_eq_nil_iff, valid, List.map_eq_nil_iff]
  by_cases nothing : request.complaints found = []
  · rcases request.report_of_complaints_eq_nil nothing with ⟨succeeded, text⟩
    constructor
    · simp only [succeeded, true_iff]
      exact fine.1 nothing
    · intro _
      rw [text, analyzed, counted]
    · simp [succeeded]
  · rcases request.report_of_complaints_ne_nil nothing with ⟨failed, text⟩
    constructor
    · simp only [failed, Bool.false_eq_true, false_iff]
      exact mt fine.2 nothing
    · simp [failed]
    · intro _
      refine ⟨request.complaints found, ?_, ?_⟩
      · rw [text, analyzed, sameCount]
      · rw [length_complaints, sameCount, List.length_map, Nat.add_comm]

theorem AreWalks.reports {walks : List (String × Walk)} (areWalks : request.AreWalks disk walks) :
    Reports request (request.report (request.searchAlong disk walks)) (request.selection disk)
      ((request.files disk).length - (request.selection disk).length) (request.absent disk) := by
  rcases areWalks.search with ⟨selected, counted, nowhere⟩
  rw [Nat.sub_eq_of_eq_add' counted.symm, ← nowhere]
  exact reports_of_perm selected

/--
Whatever the walks are, a validation succeeds just if all paths lead somewhere and all selected
files are valid. It reports how many files it has analyzed and skipped and how many declarations the
documents in the files have; or else how many of the files are invalid, with one message for each of
them and for each path that leads nowhere.
-/
theorem report_searchAlong (request : Validate) {disk : Disk} {walks : List (String × Walk)}
    (areWalks : request.AreWalks disk walks) :
    let report := request.report (request.searchAlong disk walks)
    let selection := request.selection disk
    let skipped := (request.files disk).length - selection.length
    let documents := request.documents selection
    let failing := request.failing selection
    (report.succeeded = true ↔
        (∀ path ∈ request.paths, ∃ located, disk path = .ok located) ∧
          ∀ file ∈ selection, request.IsValid file) ∧
      (report.succeeded = true →
        report.text = successText selection.length skipped (documents.map Document.size).sum ∧
          selection.length + skipped = (request.files disk).length ∧
          List.Forall₂ request.Holds selection documents) ∧
      (report.succeeded = false → ∃ messages : List String,
        report.text = failureText failing.length selection.length messages ∧
          messages.length = failing.length + (request.absent disk).length) ∧
      report.succeeded = (request.run disk).succeeded ∧
      (report.succeeded = true → report.text = (request.run disk).text) := by
  intro report selection skipped documents failing
  have reports := areWalks.reports
  have runReports := (request.areWalks_walk disk).reports
  have sameVerdict : report.succeeded = (request.run disk).succeeded :=
    Bool.eq_iff_iff.2 (reports.verdict.trans runReports.verdict.symm)
  have enough : selection.length ≤ (request.files disk).length := by
    rcases areWalks.search with ⟨_, counted, _⟩
    exact Nat.le.intro counted
  refine ⟨?_, ?_, reports.failure, sameVerdict, ?_⟩
  · rw [← absent_eq_nil_iff]
    exact reports.verdict
  · intro succeeded
    exact ⟨reports.success succeeded, Nat.add_sub_cancel' enough,
      forall₂_documents (reports.verdict.1 succeeded).2⟩
  · intro succeeded
    exact (reports.success succeeded).trans (runReports.success (sameVerdict ▸ succeeded)).symm

/-- A directory whose entries come in the other order, and then a file in it once more. -/
theorem report_searchAlong_reordered :
    let text := Utf8.encode "typedef i32 A"
    let disk := FileNode.disk "/tmp" (.directory [("a.thrift", .file text), ("b.md", .file [])])
    let request : Validate := ⟨[".thrift"], false, [".", "a.thrift"]⟩
    let walks : List (String × Walk) :=
      [(".", .ok [⟨".", "/tmp", none⟩, ⟨"./b.md", "/tmp/b.md", some []⟩,
          ⟨"./a.thrift", "/tmp/a.thrift", some text⟩]),
        ("a.thrift", .ok [⟨"a.thrift", "/tmp/a.thrift", some text⟩])]
    request.AreWalks disk walks ∧
      (request.report (request.searchAlong disk walks)).text = successText 2 1 2 := by
  intro text disk request walks
  have tree : disk "." =
      .ok ⟨"/tmp", .directory [("a.thrift", .file text), ("b.md", .file [])]⟩ := by cbv
  have file : disk "a.thrift" = .ok ⟨"/tmp/a.thrift", .file text⟩ := by cbv
  have reordered : Walked "." "/tmp" (.directory [("a.thrift", .file text), ("b.md", .file [])])
      [⟨".", "/tmp", none⟩, ⟨"./b.md", "/tmp/b.md", some []⟩,
        ⟨"./a.thrift", "/tmp/a.thrift", some text⟩] :=
    .directory (.swap _ _ _) (.cons .file (.cons .file .nil))
  have areWalks : request.AreWalks disk walks := by
    refine ⟨rfl, ?_⟩
    intro walk mem
    rcases List.mem_pair.1 mem with rfl | rfl
    · exact .visits tree reordered
    · exact .visits file .file
  rcases report_searchAlong request areWalks with ⟨verdict, success, _⟩
  have allThere : ∀ path ∈ request.paths, ∃ located, disk path = .ok located := by
    intro path mem
    rcases List.mem_pair.1 mem with rfl | rfl
    · exact ⟨_, tree⟩
    · exact ⟨_, file⟩
  have allValid : ∀ file ∈ request.selection disk, request.IsValid file := by decide +kernel
  refine ⟨areWalks, (success (verdict.2 ⟨allThere, allValid⟩)).1.trans ?_⟩
  decide +kernel

end Validate

end ThriftIdl
