import Mathlib.Data.List.Forall2
import Mathlib.Data.List.Perm.Basic
import TreeListing.Batch
import TreeListing.Proofs.Disk
import TreeListing.Proofs.Traversal
import TreeListing.Source.Fragment

/-!
# Every file has its listing

A batch gives one listing for each path, in the order of the paths, and the listing tells what came
of the file: its records, or the first of the reasons why there are none. It depends on the language
of the path, on what is read from it and on the syntax tree of the text, but not on the other files
nor on the workers, as long as these give the listings in order.
-/

namespace TreeListing

section Assumptions

variable {σ : Type}

/-- Listings are given in the order of the paths, each as its task alone would give it. This is
asked for tasks that change nothing only. -/
def Collector.KeepsOrder (collect : Collector (StateM σ)) : Prop :=
  ∀ (task : String → StateM σ FileListing) (paths : List String) (d : σ),
    (∀ path, ((task path).run d).2 = d) →
      (collect task paths).run d = (paths.map fun path => ((task path).run d).1, d)

structure Workers.KeepOrder (workers : Workers (StateM σ)) : Prop where
  shared : workers.shared.KeepsOrder
  pool : ∀ {number pool}, workers.pool? number = some pool → pool.KeepsOrder

/-- The order is kept for any number of workers, whether or not there can be so many. -/
theorem Workers.KeepOrder.collector {workers : Workers (StateM σ)} (h : workers.KeepOrder)
    (threads : Option Nat) : (workers.collector threads).KeepsOrder := by
  cases threads with
  | none => exact h.shared
  | some number =>
    rw [Workers.collector]
    cases found : workers.pool? number with
    | none => exact h.shared
    | some pool => exact h.pool found

theorem Workers.keepOrder_single : (Workers.single : Workers (StateM σ)).KeepOrder := by
  refine ⟨?_, fun found => by cases found⟩
  intro task paths d still
  change (paths.mapM task).run d = _
  induction paths with
  | nil => rfl
  | cons path paths ih =>
    -- the task leaves the state for the rest as it was for the whole
    rw [List.mapM_cons, run_bind, still, run_bind, ih]
    rfl

variable (σ) [FileSystem (StateM σ)]

def FileSystem.ReadsOnly : Prop :=
  ∀ (path : String) (d : σ), ((readText (m := StateM σ) path).run d).2 = d

variable {σ}

def FileSystem.textAt (d : σ) (path : String) : Except FileError String :=
  ((readText (m := StateM σ) path).run d).1

end Assumptions

theorem Disk.readsOnly : FileSystem.ReadsOnly Disk := fun _ _ => rfl

theorem Tree.records_ofNode_ne_nil (root : Node) (o : Options) :
    (Tree.ofNode root).records o 0 ≠ [] := by
  have inside : 0 < (Tree.ofNode root).size := Tree.size_ofNode_pos root
  rw [Tree.records_eq_map _ o inside, Tree.listed_eq]
  exact List.cons_ne_nil _ _

theorem Source.Reader.records_of_parse {read : Source.Reader} {l : Language} {text : String}
    {tree : Tree} (parsed : read.parse l text = .ok tree) (o : Options) :
    ∃ records, read.records l text o = .ok records ∧ records ≠ [] := by
  cases node : read l text with
  | error e =>
    rw [Source.Reader.parse, node] at parsed
    cases parsed
  | ok root =>
    refine ⟨(Tree.ofNode root).records o 0, ?_, Tree.records_ofNode_ne_nil root o⟩
    rw [Source.Reader.records, Source.Reader.parse, node]
    rfl

namespace Batch

/-- A listing tells what came of a file, by what is read from its path. -/
structure Accounts (b : Batch) (read : Source.Reader) (found : Except FileError String)
    (path : String) (f : FileListing) : Prop where
  path_eq : f.path = path
  isSuccess_iff : f.isSuccess = true ↔ ∃ l text tree,
    b.languageOf? path = some l ∧ found = .ok text ∧ read.parse l text = .ok tree
  success : ∀ {l text tree}, b.languageOf? path = some l → found = .ok text →
    read.parse l text = .ok tree → f.language = some l ∧
      read.records l text b.options = .ok f.records ∧ f.records ≠ [] ∧ f.error = none
  failure : f.isSuccess = false → f.records = [] ∧ f.error.isSome = true ∧
    (f.language = none ↔ b.languageOf? path = none)
  unsupported : b.languageOf? path = none →
    f.error = some ("Unsupported file extension: " ++ (Path.extension? path).getD "")
  unreadable : ∀ {l e}, b.languageOf? path = some l → found = .error e →
    f.error = some ("Failed to read file: " ++ e.message)
  unparsed : ∀ {l text e}, b.languageOf? path = some l → found = .ok text →
    read.parse l text = .error e → f.error = some ("Parse error: " ++ e.message)

variable {b : Batch} {read : Source.Reader} {path : String} {l : Language}

theorem accounts_unsupported (unknown : b.languageOf? path = none)
    (found : Except FileError String) : b.Accounts read found path (unsupported path) where
  path_eq := rfl
  isSuccess_iff := by simp [unknown, unsupported, FileListing.failure, FileListing.isSuccess]
  success known := by simp [unknown] at known
  failure _ := ⟨rfl, rfl, by simp [unknown, unsupported, FileListing.failure]⟩
  unsupported _ := rfl
  unreadable known := by simp [unknown] at known
  unparsed known := by simp [unknown] at known

/-- A listing that fails although the language of the file is known keeps the language. -/
theorem accounts_failure {found : Except FileError String} {error : String}
    (known : b.languageOf? path = some l)
    (fails : ∀ text tree, found = .ok text → read.parse l text ≠ .ok tree)
    (unreadable : ∀ e, found = .error e → error = "Failed to read file: " ++ e.message)
    (unparsed : ∀ text e, found = .ok text → read.parse l text = .error e →
      error = "Parse error: " ++ e.message) :
    b.Accounts read found path (.failure path (some l) error) where
  path_eq := rfl
  isSuccess_iff := by
    constructor
    · intro success
      cases success
    · rintro ⟨_, text, tree, same, ok, parsed⟩
      rw [known] at same
      cases same
      exact absurd parsed (fails text tree ok)
  success same ok parsed := by
    rw [known] at same
    cases same
    exact absurd parsed (fails _ _ ok)
  failure _ := ⟨rfl, rfl, by simp [known, FileListing.failure]⟩
  unsupported unknown := by simp [known] at unknown
  unreadable _ failed := congrArg some (unreadable _ failed)
  unparsed same ok failed := by
    rw [known] at same
    cases same
    exact congrArg some (unparsed _ _ ok failed)

theorem accounts_success {text : String} {tree : Tree} {records : List Record}
    (known : b.languageOf? path = some l) (parsed : read.parse l text = .ok tree)
    (listed : read.records l text b.options = .ok records) (some_records : records ≠ []) :
    b.Accounts read (.ok text) path (.success path l records) where
  path_eq := rfl
  isSuccess_iff := ⟨fun _ => ⟨l, text, tree, known, rfl, parsed⟩, fun _ => rfl⟩
  success same ok _ := by
    rw [known] at same
    cases same
    cases ok
    exact ⟨rfl, listed, some_records, rfl⟩
  failure failed := by cases failed
  unsupported unknown := by simp [known] at unknown
  unreadable _ failed := by cases failed
  unparsed same ok failed := by
    rw [known] at same
    cases same
    cases ok
    rw [parsed] at failed
    cases failed

theorem accounts_listingOf (known : b.languageOf? path = some l)
    (found : Except FileError String) :
    b.Accounts read found path (b.listingOf read path l found) := by
  cases found with
  | error e =>
    exact accounts_failure known (fun _ _ ok => nomatch ok)
      (fun _ failed => by cases failed; rfl) (fun _ _ ok => nomatch ok)
  | ok text =>
    rw [listingOf]
    cases parsed : read.parse l text with
    | error e =>
      have unlisted : read.records l text b.options = .error e := by
        rw [Source.Reader.records, parsed]
        rfl
      rw [unlisted]
      refine accounts_failure known ?_ (fun _ failed => nomatch failed) ?_
      · rintro _ tree ⟨⟩ ok
        rw [parsed] at ok
        cases ok
      · rintro _ e' ⟨⟩ failed
        rw [parsed] at failed
        cases failed
        rfl
    | ok tree =>
      obtain ⟨records, listed, some_records⟩ := Source.Reader.records_of_parse parsed b.options
      rw [listed]
      exact accounts_success known parsed listed some_records

variable {σ : Type} [FileSystem (StateM σ)]

theorem run_listFile (b : Batch) (read : Source.Reader) (reads : FileSystem.ReadsOnly σ)
    (path : String) (d : σ) :
    ((b.listFile read path : StateM σ FileListing).run d).2 = d ∧
      b.Accounts read (FileSystem.textAt d path) path
        ((b.listFile read path : StateM σ FileListing).run d).1 := by
  cases known : b.languageOf? path with
  | none =>
    rw [listFile, known]
    exact ⟨rfl, accounts_unsupported known _⟩
  | some l =>
    rw [listFile, known]
    exact ⟨reads path d, accounts_listingOf known _⟩

end Batch

/-- The listings that succeeded and those that failed, both in order and none twice. -/
structure FileListing.Split (fs successes failures : List FileListing) : Prop where
  successes_sublist : successes.Sublist fs
  failures_sublist : failures.Sublist fs
  perm : (successes ++ failures).Perm fs
  succeeded : ∀ f ∈ successes, f.isSuccess = true
  failed : ∀ f ∈ failures, f.isSuccess = false

@[simp] theorem FileListing.isFailure_eq (f : FileListing) : f.isFailure = !f.isSuccess := by
  rw [isFailure, isSuccess, Option.not_isNone]

theorem FileListing.split (fs : List FileListing) : Split fs (successes fs) (failures fs) := by
  have not_success : isFailure = fun f => !f.isSuccess := funext isFailure_eq
  refine ⟨List.filter_sublist, List.filter_sublist, ?_, fun f mem => ?_, fun f mem => ?_⟩
  · rw [failures, not_success]
    exact List.filter_append_perm _ _
  · exact (List.mem_filter.1 mem).2
  · have failed := (List.mem_filter.1 mem).2
    rw [isFailure_eq] at failed
    simpa using failed

/-- A batch has a listing for every path, in order, and each accounts for its file. -/
theorem Batch.run_listFilesOn {σ : Type} [FileSystem (StateM σ)] (b : Batch)
    (read : Source.Reader) {workers : Workers (StateM σ)} (reads : FileSystem.ReadsOnly σ)
    (order : workers.KeepOrder) (paths : List String) (d : σ) :
    ∃ fs, (b.listFilesOn read workers paths).run d = (fs, d) ∧
      List.Forall₂ (fun path => b.Accounts read (FileSystem.textAt d path) path) paths fs ∧
      FileListing.Split fs (FileListing.successes fs) (FileListing.failures fs) := by
  -- of the workers only the order is known; what each listing is comes from its task
  have still (path : String) := (b.run_listFile read reads path d).1
  refine ⟨_, order.collector b.threads _ paths d still, ?_, FileListing.split _⟩
  exact List.forall₂_map_right_iff.2
    (List.forall₂_same.2 fun path _ => (b.run_listFile read reads path d).2)

/-- A directory of files that can be listed and of files that cannot, each for another reason. -/
def mixedFiles : Disk where
  home := []
  written := [(["data.json".toList], .file "[1]".toUTF8), (["empty.tpl".toList], .file "".toUTF8),
    (["empty.cs".toList], .file "".toUTF8), (["latin.py".toList], .file ⟨#[0xe9]⟩),
    (["src.rs".toList], .directory)]

def mixedBatch : Batch := { aliases := .ofList [("tpl", .lua)], threads := some 2 }

def mixedPaths : List String :=
  ["data.json", "notes.txt", "data.json", "gone.rs", "src.rs", "latin.py", "empty.cs", "empty.tpl"]

theorem Batch.run_listFilesOn_mixedFiles :
    FileSystem.ReadsOnly Disk ∧ (Workers.single : Workers (StateM Disk)).KeepOrder ∧
      mixedBatch.languageOf? "notes.txt" = none ∧
      mixedBatch.languageOf? "empty.tpl" = some .lua ∧
      ∃ fs, (mixedBatch.listFilesOn Source.Fragment.read (.single : Workers (StateM Disk))
        mixedPaths).run
          mixedFiles = (fs, mixedFiles) ∧
        List.Forall₂ (fun path =>
          mixedBatch.Accounts Source.Fragment.read (FileSystem.textAt mixedFiles path) path)
          mixedPaths fs ∧
        FileListing.Split fs (FileListing.successes fs) (FileListing.failures fs) :=
  ⟨Disk.readsOnly, Workers.keepOrder_single, by decide +kernel, by decide +kernel,
    mixedBatch.run_listFilesOn Source.Fragment.read Disk.readsOnly Workers.keepOrder_single
      mixedPaths
      mixedFiles⟩

end TreeListing
