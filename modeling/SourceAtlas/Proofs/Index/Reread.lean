import SourceAtlas.Index
import SourceAtlas.Proofs.Json.Reread

/-!
# Written indexes read back

What is read from the written form of an index: the index itself, with adjacent halves of surrogate
pairs joined in its texts.

* `Json.reread_fields`, `Json.mapM_ok`: members with fixed keys, and lists, are read one by one;
* `ofJson_toJson` of each outline and record: it is read from its written form;
* `reread`, `toJson_reread` of each outline and record: the same after the written form was read back;
* `Index.reread`: the index that is read back;
* **`Index.ofJson_toJson_reread`**: it is what is read from the written form of an index;
* `Index.reread_reread`: an index that was read back stays the same.
-/

namespace SourceAtlas

/-! ## Members with fixed keys -/

namespace Json

/-- Members whose keys are distinct characters are read back one by one. -/
theorem reread_fields {ms : List (String × Json)} (h : (ms.map Prod.fst).Nodup) :
    reread (fields ms) = fields (ms.map fun m => (m.1, m.2.reread)) := by
  have hmap : ∀ m : String × Json, rereadMember (Text.ofString m.1, m.2) =
      (Text.ofString m.1, m.2.reread) := fun m =>
    Prod.ext (Text.joinPairs_of_hasNoPair (Text.hasNoPair_ofString m.1)) rfl
  rw [fields, reread_object, fields, List.map_map, List.map_map, mergeMembers_of_nodup]
  · refine congrArg object (List.map_congr_left fun m _ => ?_)
    rw [Function.comp_apply, Function.comp_apply, hmap]
  · have hkeys : (ms.map (rereadMember ∘ fun m => (Text.ofString m.1, m.2))).map Prod.fst =
        (ms.map Prod.fst).map Text.ofString := by
      rw [List.map_map, List.map_map]
      apply List.map_congr_left
      intro m _
      rw [Function.comp_apply, Function.comp_apply, hmap]
      rfl
    exact hkeys ▸ h.map Text.ofString_injective

theorem reread_texts (ts : List Text) : reread (.texts ts) = .texts (ts.map Text.joinPairs) := by
  rw [texts, reread_list, texts, List.map_map, List.map_map]
  refine congrArg list (List.map_congr_left fun t _ => ?_)
  exact reread_text t

variable {α : Type} {read : Json → Except ShapeFault α} {write : α → Json} {f : α → α}

/-- A list is read item by item. -/
theorem mapM_ok (h : ∀ a, read (write a) = .ok a) (as : List α) :
    (as.map write).mapM read = .ok as := by
  induction as with
  | nil => rfl
  | cons a as ih =>
    rw [List.map_cons, List.mapM_cons, h, ih]
    rfl

theorem mapM_texts (ts : List Text) :
    ((ts.map text).mapM fun v => (.ok v.shown : Except ShapeFault Text)) = .ok ts :=
  @mapM_ok Text (fun v => .ok v.shown) text (fun _ => rfl) ts

/-- A list is read back item by item. -/
theorem reread_list_map (h : ∀ a, (write a).reread = write (f a)) (as : List α) :
    reread (.list (as.map write)) = .list ((as.map f).map write) := by
  rw [reread_list, List.map_map, List.map_map]
  exact congrArg list (List.map_congr_left fun a _ => h a)

end Json

open Json (reread_fields reread_texts reread_list_map reread_text mapM_ok mapM_texts listMember)

/-- Changing every item twice is changing it once, if this is so of each item. -/
theorem map_map_self {α : Type} {f : α → α} (h : ∀ a, f (f a) = f a) (as : List α) :
    (as.map f).map f = as.map f := by
  rw [List.map_map]
  exact List.map_congr_left fun a _ => h a

/-! ## Outlines -/

namespace Parameter

def reread (p : Parameter) : Parameter := ⟨p.name.joinPairs, p.type.joinPairs⟩

theorem ofJson_toJson (p : Parameter) : ofJson p.toJson = .ok p := rfl

theorem toJson_reread (p : Parameter) : p.toJson.reread = p.reread.toJson := by
  rw [toJson, reread_fields (by simp)]
  simp only [List.map_cons, List.map_nil, reread_text]
  rfl

theorem reread_reread (p : Parameter) : p.reread.reread = p.reread := by
  simp only [reread, Text.joinPairs_joinPairs]

end Parameter

namespace DecoratorOutline

def reread (d : DecoratorOutline) : DecoratorOutline :=
  ⟨d.name.joinPairs, d.arguments.map Text.joinPairs⟩

theorem ofJson_toJson (d : DecoratorOutline) : ofJson d.toJson = .ok d := by
  have ha : listMember "arguments" (fun a => .ok a.shown) d.toJson = .ok d.arguments :=
    mapM_texts d.arguments
  rw [ofJson, ha]
  rfl

theorem toJson_reread (d : DecoratorOutline) : d.toJson.reread = d.reread.toJson := by
  rw [toJson, reread_fields (by simp)]
  simp only [List.map_cons, List.map_nil, reread_text, reread_texts]
  rfl

theorem reread_reread (d : DecoratorOutline) : d.reread.reread = d.reread := by
  simp only [reread, Text.joinPairs_joinPairs, map_map_self Text.joinPairs_joinPairs]

end DecoratorOutline

namespace FunctionOutline

def reread (f : FunctionOutline) : FunctionOutline :=
  ⟨f.name.joinPairs, f.parameters.map Parameter.reread, f.returnType.joinPairs⟩

theorem ofJson_toJson (f : FunctionOutline) : ofJson f.toJson = .ok f := by
  have hp : listMember "parameters" Parameter.ofJson f.toJson = .ok f.parameters :=
    mapM_ok Parameter.ofJson_toJson f.parameters
  rw [ofJson, hp]
  rfl

theorem toJson_reread (f : FunctionOutline) : f.toJson.reread = f.reread.toJson := by
  rw [toJson, reread_fields (by simp)]
  simp only [List.map_cons, List.map_nil, reread_text, reread_list_map Parameter.toJson_reread]
  rfl

theorem reread_reread (f : FunctionOutline) : f.reread.reread = f.reread := by
  simp only [reread, Text.joinPairs_joinPairs, map_map_self Parameter.reread_reread]

end FunctionOutline

namespace MethodOutline

def reread (m : MethodOutline) : MethodOutline :=
  ⟨m.name.joinPairs, m.parameters.map Parameter.reread, m.returnType.joinPairs,
    m.decorators.map DecoratorOutline.reread⟩

theorem ofJson_toJson (m : MethodOutline) : ofJson m.toJson = .ok m := by
  have hp : listMember "parameters" Parameter.ofJson m.toJson = .ok m.parameters :=
    mapM_ok Parameter.ofJson_toJson m.parameters
  have hd : listMember "decorators" DecoratorOutline.ofJson m.toJson = .ok m.decorators :=
    mapM_ok DecoratorOutline.ofJson_toJson m.decorators
  rw [ofJson, hp, hd]
  rfl

theorem toJson_reread (m : MethodOutline) : m.toJson.reread = m.reread.toJson := by
  rw [toJson, reread_fields (by simp)]
  simp only [List.map_cons, List.map_nil, reread_text, reread_list_map Parameter.toJson_reread,
    reread_list_map DecoratorOutline.toJson_reread]
  rfl

theorem reread_reread (m : MethodOutline) : m.reread.reread = m.reread := by
  simp only [reread, Text.joinPairs_joinPairs, map_map_self Parameter.reread_reread,
    map_map_self DecoratorOutline.reread_reread]

end MethodOutline

namespace ClassOutline

def reread (c : ClassOutline) : ClassOutline :=
  ⟨c.name.joinPairs, c.decorators.map DecoratorOutline.reread, c.methods.map MethodOutline.reread⟩

theorem ofJson_toJson (c : ClassOutline) : ofJson c.toJson = .ok c := by
  have hd : listMember "decorators" DecoratorOutline.ofJson c.toJson = .ok c.decorators :=
    mapM_ok DecoratorOutline.ofJson_toJson c.decorators
  have hm : listMember "methods" MethodOutline.ofJson c.toJson = .ok c.methods :=
    mapM_ok MethodOutline.ofJson_toJson c.methods
  rw [ofJson, hd, hm]
  rfl

theorem toJson_reread (c : ClassOutline) : c.toJson.reread = c.reread.toJson := by
  rw [toJson, reread_fields (by simp)]
  simp only [List.map_cons, List.map_nil, reread_text,
    reread_list_map DecoratorOutline.toJson_reread, reread_list_map MethodOutline.toJson_reread]
  rfl

theorem reread_reread (c : ClassOutline) : c.reread.reread = c.reread := by
  simp only [reread, Text.joinPairs_joinPairs, map_map_self DecoratorOutline.reread_reread,
    map_map_self MethodOutline.reread_reread]

end ClassOutline

namespace PropertyOutline

def reread (p : PropertyOutline) : PropertyOutline := ⟨p.name.joinPairs, p.type.joinPairs⟩

theorem ofJson_toJson (p : PropertyOutline) : ofJson p.toJson = .ok p := rfl

theorem toJson_reread (p : PropertyOutline) : p.toJson.reread = p.reread.toJson := by
  rw [toJson, reread_fields (by simp)]
  simp only [List.map_cons, List.map_nil, reread_text]
  rfl

theorem reread_reread (p : PropertyOutline) : p.reread.reread = p.reread := by
  simp only [reread, Text.joinPairs_joinPairs]

end PropertyOutline

namespace InterfaceOutline

def reread (i : InterfaceOutline) : InterfaceOutline :=
  ⟨i.name.joinPairs, i.properties.map PropertyOutline.reread⟩

theorem ofJson_toJson (i : InterfaceOutline) : ofJson i.toJson = .ok i := by
  have hp : listMember "properties" PropertyOutline.ofJson i.toJson = .ok i.properties :=
    mapM_ok PropertyOutline.ofJson_toJson i.properties
  rw [ofJson, hp]
  rfl

theorem toJson_reread (i : InterfaceOutline) : i.toJson.reread = i.reread.toJson := by
  rw [toJson, reread_fields (by simp)]
  simp only [List.map_cons, List.map_nil, reread_text,
    reread_list_map PropertyOutline.toJson_reread]
  rfl

theorem reread_reread (i : InterfaceOutline) : i.reread.reread = i.reread := by
  simp only [reread, Text.joinPairs_joinPairs, map_map_self PropertyOutline.reread_reread]

end InterfaceOutline

/-! ## Records -/

namespace SourceRecord

variable {α : Type} {key : Text} {read : Json → Except ShapeFault α} {v : Json}

theorem listOrEmpty_eq {vs : List Json} {as : List α}
    (hm : Json.memberOr (.list []) key v = .ok (.list vs)) (hr : vs.mapM read = .ok as) :
    listOrEmpty key read v = .ok as := by
  rw [listOrEmpty, Json.truthyOr, hm, ← hr]
  cases vs <;> rfl

theorem textOrEmpty_eq {t : Text} (hm : Json.memberOr (.text []) key v = .ok (.text t)) :
    textOrEmpty key v = .ok t := by
  rw [textOrEmpty, Json.truthyOr, hm]
  cases t <;> rfl

def reread (r : SourceRecord) : SourceRecord where
  repository := r.repository.joinPairs
  fileName := r.fileName.joinPairs
  imports := r.imports.map Text.joinPairs
  functions := r.functions.map FunctionOutline.reread
  classes := r.classes.map ClassOutline.reread
  interfaces := r.interfaces.map InterfaceOutline.reread
  sourceCode := r.sourceCode.joinPairs
  compiledCode := r.compiledCode.joinPairs

theorem ofJson_toJson (r : SourceRecord) : ofJson r.toJson = .ok r := by
  have hi : listOrEmpty "imports" (fun i => .ok i.shown) r.toJson = .ok r.imports :=
    listOrEmpty_eq rfl (mapM_texts r.imports)
  have hf : listOrEmpty "functions" FunctionOutline.ofJson r.toJson = .ok r.functions :=
    listOrEmpty_eq rfl (mapM_ok FunctionOutline.ofJson_toJson r.functions)
  have hc : listOrEmpty "classes" ClassOutline.ofJson r.toJson = .ok r.classes :=
    listOrEmpty_eq rfl (mapM_ok ClassOutline.ofJson_toJson r.classes)
  have hn : listOrEmpty "interfaces" InterfaceOutline.ofJson r.toJson = .ok r.interfaces :=
    listOrEmpty_eq rfl (mapM_ok InterfaceOutline.ofJson_toJson r.interfaces)
  have hs : textOrEmpty "sourceCode" r.toJson = .ok r.sourceCode := textOrEmpty_eq rfl
  have hd : textOrEmpty "compiledCode" r.toJson = .ok r.compiledCode := textOrEmpty_eq rfl
  rw [ofJson, hi, hf, hc, hn, hs, hd]
  rfl

theorem toJson_reread (r : SourceRecord) : r.toJson.reread = r.reread.toJson := by
  rw [toJson, reread_fields (by simp)]
  simp only [List.map_cons, List.map_nil, reread_text, reread_texts,
    reread_list_map FunctionOutline.toJson_reread, reread_list_map ClassOutline.toJson_reread,
    reread_list_map InterfaceOutline.toJson_reread]
  rfl

theorem reread_reread (r : SourceRecord) : r.reread.reread = r.reread := by
  simp only [reread, Text.joinPairs_joinPairs, map_map_self Text.joinPairs_joinPairs,
    map_map_self FunctionOutline.reread_reread, map_map_self ClassOutline.reread_reread,
    map_map_self InterfaceOutline.reread_reread]

end SourceRecord

/-! ## Indexes -/

namespace Index

/-- The summary of a repository; null stands for none. -/
def presentSummary? : Option Json → Option Json
  | some .null => none
  | s => s

/-- The index that is read from the written form of an index. -/
def reread (i : Index) : Index where
  repository := i.repository.joinPairs
  files := i.files.map Text.joinPairs
  records := i.records.map SourceRecord.reread
  fileSummaries := Json.mergeMembers (i.fileSummaries.map Json.rereadMember)
  repoSummary := (presentSummary? i.repoSummary).map Json.reread

theorem ofJson_toJson (i : Index) :
    ofJson i.toJson = .ok { i with repoSummary := presentSummary? i.repoSummary } := by
  have ht : Json.truthyOr (.text []) "repository" i.toJson = .ok (.text i.repository) := by
    have hm : Json.memberOr (.text []) "repository" i.toJson = .ok (.text i.repository) := rfl
    rw [Json.truthyOr, hm]
    cases i.repository <;> rfl
  have hf : SourceRecord.listOrEmpty "files" (fun f => .ok f.shown) i.toJson = .ok i.files :=
    SourceRecord.listOrEmpty_eq rfl (mapM_texts i.files)
  have hr : SourceRecord.listOrEmpty "codebaseInfo" SourceRecord.ofJson i.toJson = .ok i.records :=
    SourceRecord.listOrEmpty_eq rfl (mapM_ok SourceRecord.ofJson_toJson i.records)
  have hs : Json.truthyOr (.object []) "fileSummaries" i.toJson = .ok (.object i.fileSummaries) := by
    have hm : Json.memberOr (.object []) "fileSummaries" i.toJson = .ok (.object i.fileSummaries) :=
      rfl
    rw [Json.truthyOr, hm]
    cases i.fileSummaries <;> rfl
  have hp : i.toJson.get? "repoSummary" = i.repoSummary := by
    unfold toJson
    cases i.repoSummary <;> rfl
  rw [ofJson, ht, hf, hr, hs, hp]
  cases i.repoSummary with
  | none => rfl
  | some s => cases s <;> rfl

theorem toJson_eq (i : Index) : i.toJson =
    Json.fields ([("repository", .text i.repository), ("files", .texts i.files),
      ("codebaseInfo", .list (i.records.map SourceRecord.toJson)),
      ("fileSummaries", .object i.fileSummaries)] ++
        i.repoSummary.toList.map fun s => ("repoSummary", s)) := by
  unfold toJson
  cases i.repoSummary <;> rfl

theorem toJson_reread (i : Index) :
    i.toJson.reread = { i.reread with repoSummary := i.repoSummary.map Json.reread }.toJson := by
  rw [toJson_eq, reread_fields, toJson_eq]
  · cases i.repoSummary <;>
      simp only [List.map_append, List.map_cons, List.map_nil, reread_text, reread_texts,
        reread_list_map SourceRecord.toJson_reread, Json.reread_object] <;> rfl
  · cases i.repoSummary <;> simp

theorem presentSummary?_map_reread (s : Option Json) :
    presentSummary? (s.map Json.reread) = (presentSummary? s).map Json.reread := by
  cases s with
  | none => rfl
  | some v => cases v <;> simp [presentSummary?, Json.reread, Json.ofMembers]

/-- **What is read from the written form of an index.** -/
theorem ofJson_toJson_reread (i : Index) : ofJson i.toJson.reread = .ok i.reread := by
  rw [toJson_reread, ofJson_toJson, presentSummary?_map_reread]
  rfl

theorem presentSummary?_self (s : Option Json) :
    presentSummary? (presentSummary? s) = presentSummary? s := by
  cases s with
  | none => rfl
  | some v => cases v <;> rfl

/-! ## Indexes that were read -/

theorem rereadMember_rereadMember (m : Text × Json) :
    Json.rereadMember (Json.rereadMember m) = Json.rereadMember m :=
  Prod.ext (Text.joinPairs_joinPairs m.1) (Json.reread_reread m.2)

/-- **An index that was read back is read back as it is.** -/
theorem reread_reread (i : Index) : i.reread.reread = i.reread := by
  have hs : (i.reread.fileSummaries).map Json.rereadMember = i.reread.fileSummaries := by
    refine (List.map_congr_left fun m hm => ?_).trans (List.map_id' _)
    obtain ⟨k, -, rfl⟩ := List.mem_map.1 (Json.mem_of_mem_mergeMembers hm)
    exact rereadMember_rereadMember k
  have hp : (presentSummary? (i.reread.repoSummary)).map Json.reread = i.reread.repoSummary := by
    show (presentSummary? ((presentSummary? i.repoSummary).map Json.reread)).map Json.reread = _
    rw [presentSummary?_map_reread, presentSummary?_self, Option.map_map]
    refine Option.map_congr fun s _ => ?_
    exact Json.reread_reread s
  rw [reread, hs, hp, reread, Json.mergeMembers_of_nodup (Json.nodup_mergeMembers _)]
  simp only [Text.joinPairs_joinPairs, map_map_self Text.joinPairs_joinPairs,
    map_map_self SourceRecord.reread_reread]

end Index

end SourceAtlas
