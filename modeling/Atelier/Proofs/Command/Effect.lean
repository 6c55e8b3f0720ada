import Atelier.Command.Run
import Atelier.Proofs.Bundle.Refused
import Atelier.Proofs.Command.Output

/-!
# What a command line does to a tree

Only two things are ever written. A command with an output file works out its answer first and then
writes that file; unpacking checks all paths first and then writes its entries one by one. So a
command line that fails has changed nothing, unless it was unpacking and stopped at an entry.
-/

namespace Atelier

open Atelier.Action FileAction FileTree

/-! ## Writing one file -/

/-- **A file that was written is found by its path, and nothing else has changed.** -/
theorem FileTree.exists_location_of_writeFile {t t' : FileTree} {path : Bytes}
    {content : ByteArray} (h : t.writeFile path content = .ok t') :
    ∃ l, t'.find path = .ok ⟨l, .file content⟩ ∧ ∀ k, k ≠ l → t'.get? k = t.get? k := by
  obtain ⟨hnul, hlong, above, parent, n, hpath, hwalk, hn, rfl⟩ := writeFile_eq_ok_iff.1 h
  have haccepts : t.Accepts parent n := ⟨get?_of_walk hwalk, hn⟩
  have hne := Path.ne_nil_of_segments hpath
  refine ⟨parent ++ [n], find_eq_ok_iff.2 ⟨⟨hne, hnul, hlong⟩, ?_⟩, fun k hk => get?_put_of_ne hk⟩
  have hparent : (t.put parent n (.file content)).walk above = .ok ⟨parent, .directory⟩ :=
    follow_mono (fun m hm => directory_put haccepts hm) hwalk
  rw [hpath, walk_append hparent, follow_cons_eq_ok_iff]
  exact ⟨_, by rw [step_name, get?_put_self haccepts], rfl⟩

namespace Command

open Working

variable {t t' : FileTree} {w w' : Terminal} {source : Random.Source} {request : Request}
  {file bundle base : String} {err : ToolError} {seedVariable : Option String}
  {arguments : List String}

/-! ## Requests -/

namespace Working

@[simp] theorem on_lift {α : Type} (result : Except ToolError α) (w : Terminal) :
    (lift result).on w = (result, w) := by
  cases result <;> rfl

@[simp] theorem on_print (text : String) (w : Terminal) :
    (print text).on w = (.ok (), { w with stdout := w.stdout ++ text }) := rfl

@[simp] theorem on_onTree {α : Type} (action : FileAction ToolError α) (w : Terminal) :
    (onTree action).on w =
      ((action.on w.tree).1, { w with tree := (action.on w.tree).2 }) := rfl

theorem on_emit_file (text file : String) (w : Terminal) :
    (emit text (some file)).on w =
      match w.tree.writeFile file text.toByteArray with
      | .ok t' => (.ok (), { w with tree := t' })
      | .error e => (.error (.io e), w) := by
  rw [emit, on_onTree, on_adapt, on_write]
  cases w.tree.writeFile file text.toByteArray <;> rfl

/-- Printing texts one after the other is printing them together. -/
theorem on_forM_print {α : Type} (line : α → String) (as : List α) (w : Terminal) :
    (as.forM fun a => print (line a)).on w =
      (.ok (), { w with stdout := w.stdout ++ String.join (as.map line) }) := by
  induction as generalizing w with
  | nil => simp [String.join]
  | cons a rest ih =>
    show on (print (line a) >>= fun _ => rest.forM fun a => print (line a)) w = _
    rw [on_bind_of_ok (on_print (line a) w), ih, List.map_cons, String.join_cons,
      String.append_assoc]

end Working

/-- Whether a request writes entries of a bundle. -/
def Request.unpacks : Request → Bool
  | .unpackage .. => true
  | .render .. | .scenes | .docs .. | .package .. => false

/-- What a request for the standard output does: it writes one text there and nothing anywhere else,
or it fails and has written nothing. -/
inductive Prints (w : Terminal) : Except ToolError Unit × Terminal → Prop
  | text (content : String) : Prints w (.ok (), { w with stdout := w.stdout ++ content })
  | nothing (err : ToolError) : Prints w (.error err, w)

theorem prints_lift (result : Except ToolError String) (w : Terminal) :
    Prints w ((lift result >>= print).on w) := by
  rw [on_bind, on_lift]
  cases result with
  | error err => exact .nothing err
  | ok content => exact .text content

/-- **An answer that is printed is worked out before anything is printed**, and changes nothing. -/
theorem prints_run (source : Random.Source) (w : Terminal) (hunpacks : request.unpacks = false)
    (hfile : request.output? = none) : Prints w ((request.run source).on w) := by
  cases request with
  | render scene seed tick pretty => exact prints_lift _ w
  | scenes =>
    rw [Request.run, on_forM_print]
    exact .text _
  | docs output summaries =>
    obtain rfl : output = none := hfile
    exact .text _
  | package root extension output =>
    obtain rfl : output = none := hfile
    rw [Request.run, on_bind_of_ok (on_get w)]
    exact prints_lift _ w
  | unpackage bundle base => cases hunpacks

theorem printed_unpacks : request.printed.unpacks = request.unpacks := by
  cases request <;> rfl

theorem printed_output? : request.printed.output? = none := by
  cases request <;> rfl

theorem unpacks_of_output (hfile : request.output? = some file) : request.unpacks = false := by
  cases request with
  | unpackage bundle base => cases hfile
  | render | scenes | docs | package => rfl

/-- **An answer for a file is worked out before the file is written**, and it is what would have
been printed. -/
theorem on_run_of_output (hfile : request.output? = some file) (t : FileTree) :
    (request.run source).on ⟨t, ""⟩ =
      match (request.printed.run source).on ⟨t, ""⟩ with
      | (.ok _, printed) => (emit printed.stdout (some file)).on ⟨t, ""⟩
      | (.error err, _) => (.error err, ⟨t, ""⟩) := by
  cases request with
  | render | scenes | unpackage => cases hfile
  | docs output summaries =>
    obtain rfl : output = some file := hfile
    simp only [Request.printed, Request.run, emit, on_print, String.empty_append]
  | package root extension output =>
    obtain rfl : output = some file := hfile
    simp only [Request.printed, Request.run, on_bind, on_get, on_lift]
    cases Bundle.package t root extension with
    | error err => rfl
    | ok text => simp only [emit, on_print, String.empty_append]

/-- A request that writes no entries has done nothing when it fails: it has changed no file and
printed no text. -/
theorem eq_of_on_run_error (hunpacks : request.unpacks = false)
    (h : (request.run source).on ⟨t, ""⟩ = (.error err, w')) : w' = ⟨t, ""⟩ := by
  cases hfile : request.output? with
  | none =>
    have hprints := prints_run source ⟨t, ""⟩ hunpacks hfile
    rw [h] at hprints
    cases hprints
    rfl
  | some file =>
    rw [on_run_of_output hfile] at h
    split at h
    · rw [on_emit_file] at h
      split at h
      · cases h
      · exact (Prod.mk.inj h).2.symm
    · exact (Prod.mk.inj h).2.symm

/-- A request with an output file that does well writes just what it would have printed. -/
theorem on_run_of_output_eq_ok (hfile : request.output? = some file)
    (h : (request.run source).on ⟨t, ""⟩ = (.ok (), w')) :
    w'.stdout = "" ∧ ∃ content l,
      (request.printed.run source).on ⟨t, ""⟩ = (.ok (), ⟨t, content⟩) ∧
      w'.tree.find file = .ok ⟨l, .file content.toByteArray⟩ ∧
      ∀ k, k ≠ l → w'.tree.get? k = t.get? k := by
  have hunpacks : request.printed.unpacks = false :=
    printed_unpacks.trans (unpacks_of_output hfile)
  have hprints := prints_run source ⟨t, ""⟩ hunpacks printed_output?
  rw [on_run_of_output hfile] at h
  generalize (request.printed.run source).on ⟨t, ""⟩ = printed at h hprints
  cases hprints with
  | nothing err => cases h
  | text content =>
    rw [String.empty_append] at h ⊢
    dsimp only at h
    rw [on_emit_file] at h
    dsimp only at h
    cases hwrite : t.writeFile file content.toByteArray with
    | error e => simp [hwrite] at h
    | ok t' =>
      rw [hwrite] at h
      obtain rfl : ⟨t', ""⟩ = w' := (Prod.mk.inj h).2
      obtain ⟨l, hfind, hothers⟩ := exists_location_of_writeFile hwrite
      exact ⟨rfl, content, l, rfl, hfind, hothers⟩

/-! ### Unpacking -/

/-- Whether unpacking stopped at an entry that could not be written. All paths were right, and the
entries in front of it are written. -/
def StoppedUnpacking (bundle base : String) (err : ToolError) (t t' : FileTree) : Prop :=
  ∃ text front e back t₁ cause, t.readText bundle = .ok text ∧
    Bundle.decode text = front ++ e :: back ∧ (∀ e ∈ Bundle.decode text, Bundle.IsSafe e) ∧
    (Bundle.writeEntries base front).on t = (.ok (), t₁) ∧
    (Bundle.writeTarget (Bundle.place base e) e.body).on t₁ = (.error cause, t') ∧ err = .io cause

/-- **Unpacking that fails has printed nothing**, and has done nothing or stopped at an entry. -/
theorem on_run_unpackage_error
    (h : ((Request.unpackage bundle base).run source).on w = (.error err, w')) :
    w'.stdout = w.stdout ∧
      (w'.tree = w.tree ∨ StoppedUnpacking bundle base err w.tree w'.tree) := by
  rw [Request.run, on_bind_of_ok (on_get w), on_bind, on_lift] at h
  cases htext : w.tree.readText bundle with
  | error cause =>
    simp only [htext, Except.mapError, Prod.mk.injEq] at h
    rw [← h.2]
    exact ⟨rfl, .inl rfl⟩
  | ok text =>
    simp only [htext, Except.mapError, on_bind, on_onTree] at h
    rw [Bundle.unpackage] at h
    rcases hwrite : (Bundle.writeTo (Bundle.decode text) base).on w.tree with ⟨e | written, t'⟩
    · simp only [hwrite, Prod.mk.injEq, Except.error.injEq] at h
      obtain ⟨rfl, rfl⟩ := h
      refine ⟨rfl, ?_⟩
      by_cases hsafe : ∀ e ∈ Bundle.decode text, Bundle.IsSafe e
      · obtain ⟨front, e, back, t₁, cause, hsplit, hfront, herror, rfl⟩ :=
          Bundle.exists_of_writeEntries_eq_error ((Bundle.on_writeTo_eq_error_iff hsafe).1 hwrite)
        exact .inr ⟨text, front, e, back, t₁, cause, htext, hsplit, hsafe, hfront, herror, rfl⟩
      · obtain ⟨e, he⟩ := Bundle.on_writeTo_of_not_isSafe base w.tree hsafe
        rw [hwrite] at he
        exact .inl (Prod.mk.inj he).2
    · simp [hwrite] at h

/-! ## Command lines -/

theorem execute_of_parse (h : parse seedVariable arguments = .ok request) :
    execute seedVariable arguments source t =
      match (request.run source).on ⟨t, ""⟩ with
      | (.ok _, w) => (⟨0, w.stdout, none⟩, w.tree)
      | (.error err, w) => (⟨1, w.stdout, some err⟩, w.tree) := by
  rw [execute, h]
  rfl

theorem execute_of_refusal {refusal : Refusal} (source : Random.Source) (t : FileTree)
    (h : parse seedVariable arguments = .error refusal) :
    ∃ code, execute seedVariable arguments source t = (⟨code, "", none⟩, t) := by
  rw [execute, h]
  cases refusal <;> exact ⟨_, rfl⟩

/-- A command line that fails prints nothing. It has changed the tree only if it was unpacking and
stopped at an entry. -/
theorem execute_of_failure (hcode : (execute seedVariable arguments source t).1.code ≠ 0) :
    (execute seedVariable arguments source t).1.stdout = "" ∧
      ((execute seedVariable arguments source t).2 = t ∨
        ∃ bundle base err, parse seedVariable arguments = .ok (.unpackage bundle base) ∧
          (execute seedVariable arguments source t).1.error = some err ∧
          StoppedUnpacking bundle base err t (execute seedVariable arguments source t).2) := by
  cases hparse : parse seedVariable arguments with
  | error refusal =>
    obtain ⟨code, hrun⟩ := execute_of_refusal source t hparse
    rw [hrun]
    exact ⟨rfl, .inl rfl⟩
  | ok request =>
    rw [execute_of_parse hparse] at hcode ⊢
    rcases hrun : (request.run source).on ⟨t, ""⟩ with ⟨err | _, w'⟩
    · cases hunpacks : request.unpacks with
      | false =>
        obtain rfl := eq_of_on_run_error hunpacks hrun
        exact ⟨rfl, .inl rfl⟩
      | true =>
        cases request with
        | render | scenes | docs | package => cases hunpacks
        | unpackage bundle base =>
          obtain ⟨hstdout, hsame | hstopped⟩ := on_run_unpackage_error hrun
          · exact ⟨hstdout, .inl hsame⟩
          · exact ⟨hstdout, .inr ⟨bundle, base, err, rfl, rfl, hstopped⟩⟩
    · simp [hrun] at hcode

/-- **A command line that fails has no effect, but for unpacking that stops at an entry; one that
does well has at most the effect that was asked for.** Only unpacking and an output file change the
tree. With an output file nothing is answered and nothing but the file is touched. The file then
holds what the same command line without the switch answers from the same tree, also when the file
is itself among those to be packaged. -/
theorem effect_of_execute (seedVariable : Option String) (arguments : List String)
    (source : Random.Source) (t : FileTree) :
    ((execute seedVariable arguments source t).1.code ≠ 0 →
      (execute seedVariable arguments source t).1.stdout = "" ∧
        ((execute seedVariable arguments source t).2 = t ∨
          ∃ bundle base err, parse seedVariable arguments = .ok (.unpackage bundle base) ∧
            (execute seedVariable arguments source t).1.error = some err ∧
            StoppedUnpacking bundle base err t (execute seedVariable arguments source t).2)) ∧
    ((execute seedVariable arguments source t).1.code = 0 →
      ∀ request, parse seedVariable arguments = .ok request →
        (request.unpacks = false → request.output? = none →
          (execute seedVariable arguments source t).2 = t) ∧
        ∀ file, request.output? = some file →
          (execute seedVariable arguments source t).1.stdout = "" ∧
          ∃ before spelled after content l, arguments = before ++ spelled ++ after ∧
            spelled ∈ output.spellings file ∧
            parse seedVariable (before ++ after) = .ok request.printed ∧
            execute seedVariable (before ++ after) source t = (⟨0, content, none⟩, t) ∧
            (execute seedVariable arguments source t).2.find file =
              .ok ⟨l, .file content.toByteArray⟩ ∧
            ∀ k, k ≠ l → (execute seedVariable arguments source t).2.get? k = t.get? k) := by
  refine ⟨execute_of_failure, ?_⟩
  intro hcode request hparse
  constructor
  · intro hunpacks hfile
    have hprints := prints_run source ⟨t, ""⟩ hunpacks hfile
    rw [execute_of_parse hparse]
    generalize (request.run source).on ⟨t, ""⟩ = run at hprints
    cases hprints with
    | text content => rfl
    | nothing err => rfl
  · intro file hfile
    rw [execute_of_parse hparse] at hcode ⊢
    rcases hrun : (request.run source).on ⟨t, ""⟩ with ⟨err | _, w'⟩
    · simp [hrun] at hcode
    · -- The answer is worked out on the tree as it was, so the file itself has no part in it.
      obtain ⟨hstdout, content, l, hprinted, hfind, hothers⟩ := on_run_of_output_eq_ok hfile hrun
      obtain ⟨before, spelled, after, hsplit, hspelled, hrest⟩ := parse_of_output hparse hfile
      refine ⟨hstdout, before, spelled, after, content, l, hsplit, hspelled, hrest, ?_, hfind,
        hothers⟩
      rw [execute_of_parse hrest, hprinted]

open Bundle.Desk in
/-- An output file that is a directory, texts that are printed as a bundle, and the same bundle
written among the texts that it is made of. -/
theorem effect_of_execute_desk :
    let failed := execute none ["docs", "-o", "source"] (.ofSeed 1) tree
    let printed := execute none ["package", "source", "--extension", "txt"] (.ofSeed 1) tree
    let arguments := ["package", "source", "--extension", "txt", "-o", "source/c.txt"]
    let ended := execute none arguments (.ofSeed 1) tree
    failed.1.code = 1 ∧ failed.1.stdout = "" ∧ failed.2 = tree ∧
      printed.1.code = 0 ∧ printed.2 = tree ∧
      ended.1.code = 0 ∧ ended.1.stdout = "" ∧
      ∃ before spelled after content l, arguments = before ++ spelled ++ after ∧
        spelled ∈ output.spellings "source/c.txt" ∧
        parse none (before ++ after) = .ok (.package "source" "txt" none) ∧
        execute none (before ++ after) (.ofSeed 1) tree = (⟨0, content, none⟩, tree) ∧
        ended.2.find "source/c.txt" = .ok ⟨l, .file content.toByteArray⟩ ∧
        ∀ k, k ≠ l → ended.2.get? k = tree.get? k := by
  intro failed printed arguments ended
  have hfailed : failed.1.code = 1 := rfl
  have hprinted : printed.1.code = 0 := rfl
  have hended : ended.1.code = 0 := rfl
  have hdocs : parse none ["docs", "-o", "source"] = .ok (.docs (some "source") false) := rfl
  obtain ⟨hstdout, hsame | ⟨bundle, base, err, hparse, -⟩⟩ :=
    (effect_of_execute none _ (.ofSeed 1) tree).1 (by rw [hfailed]; decide)
  · refine ⟨hfailed, hstdout, hsame, hprinted, ?_, hended, ?_⟩
    · exact ((effect_of_execute none _ (.ofSeed 1) tree).2 hprinted
        (.package "source" "txt" none) rfl).1 rfl rfl
    · exact ((effect_of_execute none _ (.ofSeed 1) tree).2 hended
        (.package "source" "txt" (some "source/c.txt")) rfl).2 _ rfl
  · rw [hdocs] at hparse
    cases hparse

end Command

end Atelier
