import Atelier.Proofs.Drawing.Document

/-!
# Checking and writing agree

`resolveAll` goes through lists of values, `json` builds fields from colours and numbers, and
neither uses the other. Still both work out the values of a tree in document order. So a shape that
fails the check fails to be written for the same reason, and one that passes it is written: the
forms that check first never end in an error of the writer.
-/

namespace Atelier

/-! ## The parts of a shape -/

namespace Color

theorem worksOut_mapM (c : Color Value) : WorksOut (c.mapM Value.resolve) c.channels := by
  cases c with
  | hsla a b c d | rgba a b c d =>
    exact (worksOut_resolve a).bind fun _ => (worksOut_resolve b).bind fun _ =>
      (worksOut_resolve c).bind fun _ => (worksOut_resolve d).bind fun _ => worksOut_pure _
  | css text => exact worksOut_pure _

theorem worksOut_toCss (c : Color Value) : WorksOut c.toCss c.channels :=
  c.worksOut_mapM.map cssText

theorem worksOut_json (c : Color Value) : WorksOut c.json c.channels :=
  c.worksOut_toCss.map Json.string

end Color

namespace Form

theorem worksOut_numberField (field : String × Value) :
    WorksOut (numberField field.1 field.2) [field.2] :=
  ((worksOut_resolve field.2).map Json.ofFloat).map (field.1, ·)

theorem worksOut_colorField (field : String × Option (Color Value)) :
    WorksOut (colorField field.1 field.2) (channels field.2) := by
  obtain ⟨name, c⟩ := field
  cases c with
  | none => exact worksOut_pure _
  | some c => exact c.worksOut_json.map fun tree => [(name, tree)]

/-- **A form is written in document order.** -/
theorem worksOut_fields (form : Form Value (Color Value)) :
    WorksOut form.fields
      (form.numbers ++ channels form.stroke? ++ channels form.fill?) := by
  have hnumbers := worksOut_mapM worksOut_numberField form.named
  have hcolors := worksOut_mapM worksOut_colorField [("stroke", form.stroke?), ("fill", form.fill?)]
  have hfields := hnumbers.bind fun numbers => hcolors.map fun colors => numbers ++ colors.flatten
  rw [fields_eq, fieldsOf]
  simpa [numbers, List.map_eq_flatMap] using hfields

end Form

/-! ## Trees -/

namespace Shape

mutual

theorem worksOut_resolveAll : (s : Shape) → WorksOut s.resolveAll s.document
  | ⟨form, items, qualifiers⟩ => by
    rw [resolveAll, document, ← form.values_eq]
    exact (worksOut_forM form.values).bind fun _ => worksOut_resolveItems items

theorem worksOut_resolveItems :
    (items : List Shape) → WorksOut (resolveItems items) (documentOfItems items)
  | [] => worksOut_pure ()
  | item :: rest => by
    rw [resolveItems, documentOfItems]
    exact (worksOut_resolveAll item).bind fun _ => worksOut_resolveItems rest

end

mutual

theorem worksOut_json : (s : Shape) → WorksOut s.json s.document
  | ⟨form, items, qualifiers⟩ => by
    rw [json, document]
    apply form.worksOut_fields.bind
    intro fields
    exact (worksOut_jsonItems items).map fun items => Json.object
      (("type", .string form.tag) :: fields ++ ("items", .array items) :: qualifierField qualifiers)

theorem worksOut_jsonItems :
    (items : List Shape) → WorksOut (jsonItems items) (documentOfItems items)
  | [] => worksOut_pure []
  | item :: rest => by
    rw [jsonItems, documentOfItems]
    apply (worksOut_json item).bind
    intro tree
    exact (worksOut_jsonItems rest).map (tree :: ·)

end

/-- Writing a shape fails as checking it does, with the message of the check's error. -/
theorem discard_serialize (s : Shape) :
    discard s.serialize =
      s.resolveAll.mapError fun cause => .serialization (DrawingError.division cause).message := by
  have hwrite : discard s.json = workThrough s.document := s.worksOut_json
  rw [s.worksOut_resolveAll.eq_workThrough, ← hwrite, serialize]
  cases s.json with
  | error e => rfl
  | ok tree => rfl

/-- A shape that passes the check is written, and one that does not ends in the check's error. -/
theorem discard_checked (s : Shape) : discard s.checked = s.resolveAll.mapError .division := by
  have hwrite := s.discard_serialize
  rw [checked]
  cases hcheck : s.resolveAll with
  | error e => rfl
  | ok _ =>
    rw [hcheck] at hwrite
    exact hwrite

/-- A checked shape never ends in an error of the writer, whatever is made of its JSON tree. -/
theorem map_checked_ne_serialization {α : Type} (write : Json → α) (s : Shape) (reason : String) :
    write <$> s.checked ≠ .error (.serialization reason) := by
  intro h
  have hchecked : s.checked = .error (.serialization reason) := by
    cases hc : s.checked with
    | error e =>
      rw [hc] at h
      exact congrArg Except.error (Except.error.inj h)
    | ok tree =>
      rw [hc] at h
      cases h
  rw [← discard_eq_error_iff, s.discard_checked] at hchecked
  cases hcheck : s.resolveAll with
  | error cause =>
    rw [hcheck] at hchecked
    cases hchecked
  | ok _ =>
    rw [hcheck] at hchecked
    cases hchecked

/-- **Checking and writing agree.** The check passes exactly when every value of the tree has a
number, and else tells the first failure in document order. Writing without the check succeeds
exactly when the check does, and else fails with the message of the check's error as its text. So
what is checked first never ends in an error of the writer. -/
theorem resolveAll_serialize_agree (s : Shape) :
    (s.resolveAll = .ok () ↔ ∀ v ∈ s.document, v.Resolves) ∧
      (∀ cause, s.resolveAll = .error cause ↔ FailsFirst s.document cause) ∧
      ((∃ tree, s.serialize = .ok tree) ↔ s.resolveAll = .ok ()) ∧
      discard s.serialize =
        s.resolveAll.mapError (fun cause => .serialization (DrawingError.division cause).message) ∧
      ∀ reason, s.toJson ≠ .error (.serialization reason) ∧
        s.toPrettyJson ≠ .error (.serialization reason) ∧
        s.toSortedJson ≠ .error (.serialization reason) := by
  have hcheck := s.worksOut_resolveAll
  have hwrite := s.discard_serialize
  refine ⟨?_, fun cause => hcheck.error_iff, ?_, hwrite, fun reason => ⟨?_, ?_, ?_⟩⟩
  · rw [← hcheck.ok_iff]
    exact ⟨fun h => ⟨(), h⟩, fun ⟨_, h⟩ => h⟩
  · rw [← discard_eq_ok_iff, hwrite]
    cases s.resolveAll with
    | error cause => exact ⟨nofun, nofun⟩
    | ok _ => exact ⟨fun _ => rfl, fun _ => rfl⟩
  · exact s.map_checked_ne_serialization _ reason
  · exact s.map_checked_ne_serialization _ reason
  · exact s.map_checked_ne_serialization _ reason

end Shape

end Atelier
