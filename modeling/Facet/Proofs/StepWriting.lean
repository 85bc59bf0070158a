import Facet.Proofs.NumberText
import Facet.Proofs.StepLayout

namespace Facet

def Gap.space : Gap :=
  ⟨[' '], by decide, by decide⟩

def Gap.feed : Gap :=
  ⟨['\n'], by decide, by decide⟩

def Field.float (x : Float) (gap : Gap) : Field readFloat :=
  ⟨floatText x, x, gap, isWord_floatText x, readFloat_floatText x⟩

def Field.index (i : UInt32) (gap : Gap) : Field readIndex :=
  ⟨countText i.toNat, i, gap, isWord_countText i.toNat, readIndex_countText i⟩

def Field.count {n : Nat} (h : n ≤ countLimit) (gap : Gap) : Field (readCount countLimit) :=
  ⟨countText n, n, gap, isWord_countText n, readCount_countText h⟩

def Triple.ofPoint (p : Point) : Triple readFloat :=
  ⟨.float p.x .space, .float p.y .space, .float p.z .feed⟩

def Triple.ofTriangle (t : Triangle) : Triple readIndex :=
  ⟨.index t.a .space, .index t.b .space, .index t.c .feed⟩

theorem map_point_ofPoint (ps : List Point) :
    (ps.map Triple.ofPoint).map Triple.point = ps := by
  rw [List.map_map]
  exact List.map_id ps

theorem map_triangle_ofTriangle (ts : List Triangle) :
    (ts.map Triple.ofTriangle).map Triple.triangle = ts := by
  rw [List.map_map]
  exact List.map_id ts

/-- The body of a section that is written with one record on a line. -/
def CountedBody.ofRecords {α ρ : Type} {read : List Char → Option α} (triple : ρ → Triple read)
    {records : List ρ} (h : records.length ≤ countLimit) : CountedBody read where
  gap := .space
  count := .count h .feed
  records := records.map triple
  complete := List.length_map triple

theorem text_ofPoint (p : Point) : (Triple.ofPoint p).text = line (pointText p) := by
  simp [Triple.text, Triple.ofPoint, Field.text, Field.float, Gap.space, Gap.feed, line, pointText]

theorem text_ofTriangle (t : Triangle) : (Triple.ofTriangle t).text = line (triangleText t) := by
  simp [Triple.text, Triple.ofTriangle, Field.text, Field.index, Gap.space, Gap.feed, line,
    triangleText]

theorem sectionText_eq_body {α ρ : Type} {read : List Char → Option α} {triple : ρ → Triple read}
    {recordText : ρ → List Char} (htext : ∀ r, (triple r).text = line (recordText r))
    (part : CountedSection) {records : List ρ} (h : records.length ≤ countLimit) :
    sectionText part recordText records =
      part.keyword.toList ++ (CountedBody.ofRecords triple h).text := by
  have hrecords : (records.map triple).flatMap Triple.text =
      records.flatMap fun r => line (recordText r) := by
    simp only [List.flatMap_map, htext]
  simp [sectionText, CountedBody.ofRecords, CountedBody.text, Field.text, Field.count, Gap.space,
    Gap.feed, line, hrecords]

def StepHeader.written : StepHeader where
  lead := []
  tail := ⟨' ' :: stepVersion.toList, by decide, by decide⟩
  blanks := isBlanks_nil

def LineTail.ofName {name : List Char} (h : '\n' ∉ name) : LineTail where
  text := ' ' :: name
  no_feed := by simpa using h
  endsWord := endsWord_cons (by decide) name

/-- A mesh whose counts fit the machine's words, as those of a list in memory do. -/
structure Mesh.Countable (m : Mesh) : Prop where
  vertices : m.vertices.toList.length ≤ countLimit
  triangles : m.triangles.toList.length ≤ countLimit

theorem Mesh.Countable.normals {m : Mesh} (h : m.Countable) :
    ∀ ns ∈ m.normals, ns.toList.length ≤ countLimit := by
  intro ns hns
  rw [Array.length_toList, m.normals_size ns hns, ← Array.length_toList]
  exact h.vertices

def Mesh.normalsBlocks (m : Mesh) (h : m.Countable) : List StepBlock :=
  (m.normals.pmap (fun _ hns => .normals (.ofRecords Triple.ofPoint hns)) h.normals).toList

/-- The sections that hold the mesh, in the order in which they are written. -/
def Mesh.writtenBlocks (m : Mesh) (h : m.Countable) : List StepBlock :=
  .vertices (.ofRecords Triple.ofPoint h.vertices) ::
    .indices (.ofRecords Triple.ofTriangle h.triangles) :: m.normalsBlocks h

def Model.writtenBlocks (m : Model) (hname : '\n' ∉ m.name.toList) (h : m.mesh.Countable) :
    List StepBlock :=
  .name (.ofName hname) :: m.mesh.writtenBlocks h

theorem Mesh.normalsText_eq_blocks (m : Mesh) (h : m.Countable) :
    m.normalsText = (m.normalsBlocks h).flatMap StepBlock.text := by
  obtain ⟨vertices, triangles, normals, hsize⟩ := m
  cases normals with
  | none => rfl
  | some ns =>
    have hns : ns.toList.length ≤ countLimit := h.normals ns rfl
    rw [normalsText_of_some rfl (hsize ns rfl), normalsBlocks, Option.pmap_some,
      Option.toList_some, List.flatMap_singleton]
    exact sectionText_eq_body text_ofPoint .normals hns

def Mesh.text (m : Mesh) : List Char :=
  sectionText .vertices pointText m.vertices.toList ++
    (sectionText .indices triangleText m.triangles.toList ++ m.normalsText)

theorem Mesh.text_eq_blocks (m : Mesh) (h : m.Countable) :
    m.text = (m.writtenBlocks h).flatMap StepBlock.text := by
  have hvertices : sectionText .vertices pointText m.vertices.toList =
      (StepBlock.vertices (.ofRecords Triple.ofPoint h.vertices)).text :=
    sectionText_eq_body text_ofPoint .vertices h.vertices
  have htriangles : sectionText .indices triangleText m.triangles.toList =
      (StepBlock.indices (.ofRecords Triple.ofTriangle h.triangles)).text :=
    sectionText_eq_body text_ofTriangle .indices h.triangles
  rw [Mesh.text, hvertices, htriangles, m.normalsText_eq_blocks h]
  simp only [Mesh.writtenBlocks, List.flatMap_cons]

def Model.nameText (m : Model) : List Char :=
  line ("NAME ".toList ++ m.name.toList)

theorem stepText_eq (m : Model) :
    stepText m = StepHeader.written.text ++ '\n' :: (m.nameText ++ m.mesh.text) := by
  have hheader : line (stepMagic.toList ++ ' ' :: stepVersion.toList) =
      StepHeader.written.text ++ ['\n'] := rfl
  have htext : stepText m =
      line (stepMagic.toList ++ ' ' :: stepVersion.toList) ++ m.nameText ++
        sectionText .vertices pointText m.mesh.vertices.toList ++
        sectionText .indices triangleText m.mesh.triangles.toList ++ m.mesh.normalsText := rfl
  rw [htext, hheader, Mesh.text]
  simp only [List.append_assoc, List.cons_append, List.nil_append]

theorem stepText_eq_blocks (m : Model) (hname : '\n' ∉ m.name.toList) (h : m.mesh.Countable) :
    stepText m =
      StepHeader.written.text ++ '\n' :: (m.writtenBlocks hname h).flatMap StepBlock.text := by
  have hnamed : m.nameText = (StepBlock.name (.ofName hname)).text := rfl
  rw [stepText_eq, Model.writtenBlocks, List.flatMap_cons, hnamed, m.mesh.text_eq_blocks h]

end Facet
