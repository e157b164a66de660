import Gcode.Proofs.Document.JsonText
import Gcode.Request.Document

/-!
# Requests in JSON

The document of a request is read back as the request (`ofDocument?_toDocument`), so a request is
read back from its text if its doubles are.  The text of a request with finite doubles is the text
of no other, even where a double is read as its neighbour.
-/

namespace Gcode

/-! ## Documents of requests -/

theorem Axis.ofDocument?_toDocument (axis : Axis) : ofDocument? axis.toDocument = some axis := by
  cases axis <;> rfl

theorem Point.ofDocument?_toDocument (point : Point Float) :
    ofDocument? point.toDocument = some point := rfl

theorem Plane.ofDocument?_toDocument (plane : Plane) :
    ofDocument? plane.toDocument = some plane := by
  have hfields : plane.toDocument.fields? .refused ["axis_0", "axis_1", "axis_2"] =
      some [some plane.first.toDocument, some plane.second.toDocument,
        some plane.across.toDocument] := by
    simp [toDocument, Document.record, Document.fields?, Document.entry?]
  rw [ofDocument?, hfields]
  simp only [Option.bind_eq_bind, Option.bind_some, Axis.ofDocument?_toDocument]
  rfl

theorem Feed.ofDocument?_toDocument (feed : Feed) : ofDocument? feed.toDocument = some feed := by
  cases feed with
  | unitsPerSecond rate => rfl
  | inverseTime time => cases time <;> rfl

theorem SpindleDirection.ofDocument?_toDocument (direction : SpindleDirection) :
    ofDocument? direction.toDocument = some direction := by
  cases direction <;> rfl

theorem arcOfDocument?_arcDocument (helix : Helix Float) (feed : Feed) :
    arcOfDocument? (arcDocument helix feed) = some (helix, feed) := by
  have hfields : (arcDocument helix feed).fields? .refused arcFieldNames =
      some [some (.float helix.startBearing), some (.float helix.travel),
        some (.float helix.radius), some (.float helix.depth), some helix.plane.toDocument,
        some feed.toDocument] := by
    simp [arcDocument, arcFieldNames, Document.record, Document.fields?, Document.entry?]
  rw [arcOfDocument?, hfields]
  simp only [Option.bind_eq_bind, Option.bind_some, Document.float?, Plane.ofDocument?_toDocument,
    Feed.ofDocument?_toDocument]
  rfl

theorem unsigned?_toNat (value : UInt32) : unsigned? (.integer value.toNat) = some value := by
  have hvalue := value.toNat_lt
  rw [unsigned?, if_pos (by omega), Int.toNat_natCast, UInt32.ofNat_toNat]

theorem signed?_toInt (value : Int32) : signed? (.integer value.toInt) = some value := by
  have hlow := value.le_toInt
  have hhigh := value.toInt_lt
  rw [signed?, if_pos (by omega), Int32.ofInt_toInt]

namespace Request

theorem ofDocument?_eq_ofTagged? (request : Request) :
    ofDocument? request.toDocument = ofTagged? request.tag.toList (.record request.fields) := by
  cases request <;> simp [toDocument, ofDocument?, fields, Document.record, Document.entry?,
    Document.word, Document.text?]

theorem ofDocument?_toDocument (request : Request) :
    ofDocument? request.toDocument = some request := by
  rw [ofDocument?_eq_ofTagged?]
  cases request with
  | line target feed =>
      have hfields : (Document.record (line target feed).fields).fields? .refused
          ["target", "feed"] = some [some target.toDocument, some feed.toDocument] := by
        simp [fields, Document.record, Document.fields?, Document.entry?]
      simp [tag, ofTagged?, hfields, Point.ofDocument?_toDocument, Feed.ofDocument?_toDocument]
  | arc helix feed =>
      have hfields : (Document.record (arc helix feed).fields).fields? .refused ["arc"] =
          some [some (arcDocument helix feed)] := by
        simp [fields, Document.record, Document.fields?, Document.entry?]
      simp [tag, ofTagged?, hfields, arcOfDocument?_arcDocument]
  | dwell milliseconds =>
      have hfields : (Document.record (dwell milliseconds).fields).fields? .refused
          ["milliseconds"] = some [some (.integer milliseconds.toNat)] := by
        simp [fields, Document.record, Document.fields?, Document.entry?]
      simp [tag, ofTagged?, hfields, unsigned?_toNat]
  | goHome => rfl
  | spindleRun direction speed =>
      have hfields : (Document.record (spindleRun direction speed).fields).fields? .refused
          ["direction", "speed"] =
            some [some direction.toDocument, some (.integer speed.toInt)] := by
        simp [fields, Document.record, Document.fields?, Document.entry?]
      simp [tag, ofTagged?, hfields, SpindleDirection.ofDocument?_toDocument, signed?_toInt]
  | spindleStop => rfl

end Request

/-! ## Doubles of requests -/

def Feed.doubles : Feed → List Float
  | unitsPerSecond rate => [rate]
  | inverseTime time => time.toList

def Request.doubles : Request → List Float
  | line target feed => target.toList ++ feed.doubles
  | arc helix feed =>
    [helix.startBearing, helix.travel, helix.radius, helix.depth] ++ feed.doubles
  | _ => []

variable {isGood : Float → Prop}

theorem Point.isPlain_toDocument {point : Point Float} (h : ∀ value ∈ point.toList, isGood value) :
    Json.IsPlain isGood point.toDocument := by
  simp only [toList, List.forall_mem_cons] at h
  obtain ⟨hx, hy, hz, -⟩ := h
  exact ⟨hx, hy, hz, trivial⟩

theorem Feed.isPlain_toDocument {feed : Feed} (h : ∀ value ∈ feed.doubles, isGood value) :
    Json.IsPlain isGood feed.toDocument := by
  cases feed with
  | unitsPerSecond rate => exact ⟨h rate List.mem_cons_self, trivial⟩
  | inverseTime time =>
      cases time with
      | none => exact ⟨trivial, trivial⟩
      | some time => exact ⟨h time List.mem_cons_self, trivial⟩

theorem isPlain_arcDocument {helix : Helix Float} {feed : Feed}
    (h : ∀ value ∈ (Request.arc helix feed).doubles, isGood value) :
    Json.IsPlain isGood (arcDocument helix feed) := by
  simp only [Request.doubles, List.cons_append, List.nil_append, List.forall_mem_cons] at h
  obtain ⟨hstart, htravel, hradius, hdepth, hfeed⟩ := h
  have hplane : Json.IsPlain isGood helix.plane.toDocument := ⟨trivial, trivial, trivial, trivial⟩
  exact ⟨hstart, htravel, hradius, hdepth, hplane, Feed.isPlain_toDocument hfeed, trivial⟩

namespace Request

theorem isPlain_toDocument {request : Request} (h : ∀ value ∈ request.doubles, isGood value) :
    Json.IsPlain isGood request.toDocument := by
  cases request with
  | line target feed =>
      obtain ⟨htarget, hfeed⟩ := List.forall_mem_append.1 h
      exact ⟨trivial, Point.isPlain_toDocument htarget, Feed.isPlain_toDocument hfeed, trivial⟩
  | arc helix feed => exact ⟨trivial, isPlain_arcDocument h, trivial⟩
  | dwell milliseconds =>
      have hbits := milliseconds.toNat_lt
      exact ⟨trivial, ⟨by omega, by omega⟩, trivial⟩
  | goHome => exact ⟨trivial, trivial⟩
  | spindleRun direction speed =>
      have hlow := speed.le_toInt
      have hhigh := speed.toInt_lt
      exact ⟨trivial, trivial, ⟨by omega, by omega⟩, trivial⟩
  | spindleStop => exact ⟨trivial, trivial⟩

end Request

/-! ## Depth -/

theorem Feed.depth_toDocument (feed : Feed) : feed.toDocument.depth = 1 := by
  cases feed with
  | unitsPerSecond rate => rfl
  | inverseTime time => cases time <;> rfl

theorem depth_arcDocument (helix : Helix Float) (feed : Feed) :
    (arcDocument helix feed).depth = 2 := by
  simp [arcDocument, Document.record, Document.depth, Document.depthEntries,
    Feed.depth_toDocument, Plane.toDocument, Axis.toDocument]

namespace Request

theorem depth_toDocument (request : Request) : request.toDocument.depth ≤ maxDepth := by
  cases request <;> simp [toDocument, fields, Document.record, Document.word, Document.depth,
    Document.depthEntries, Document.depthItems, Point.toDocument, Point.toList,
    Feed.depth_toDocument, depth_arcDocument, SpindleDirection.toDocument, maxDepth]

/-! ## Requests as texts -/

theorem ofJson?_of_readsBack {request : Request}
    (hreads : ∀ value ∈ request.doubles, Json.ReadsBack value) :
    ofJson? request.toJson = some request := by
  have hkept := (isPlain_toDocument hreads).isKept
  have hread : Json.read? request.toJson = some request.toDocument :=
    Json.read?_write .compact hkept
  rw [ofJson?, hread]
  simp only [Option.bind_eq_bind, Option.bind_some, hkept.isReadable, request.depth_toDocument,
    decide_true, Bool.and_self, if_true, ofDocument?_toDocument]

theorem toJson_inj {first second : Request}
    (hfirst : ∀ value ∈ first.doubles, value.isFinite = true)
    (hsecond : ∀ value ∈ second.doubles, value.isFinite = true)
    (hsame : first.toJson = second.toJson) : first = second := by
  have hdocument := Json.write_injective (isPlain_toDocument hfirst) (isPlain_toDocument hsecond)
    hsame
  have hfound := first.ofDocument?_toDocument
  rw [hdocument, second.ofDocument?_toDocument] at hfound
  exact (Option.some.inj hfound).symm

/-- A request with finite doubles is read back from its JSON text exactly as it was, if JSON reads
its doubles back.  Whether it does or not, no other request with finite doubles has that text. -/
theorem toJson_faithful {request : Request}
    (hfinite : ∀ value ∈ request.doubles, value.isFinite = true) :
    ((∀ value ∈ request.doubles, value.isFinite = true → Json.ReadsBack value) →
      ofJson? request.toJson = some request) ∧
    ∀ other : Request, (∀ value ∈ other.doubles, value.isFinite = true) →
      other.toJson = request.toJson → other = request :=
  ⟨fun hreads => ofJson?_of_readsBack fun value hvalue =>
      hreads value hvalue (hfinite value hvalue),
    fun _ hother hsame => toJson_inj hother hfinite hsame⟩

theorem toJson_faithful_negativeZero :
    let request := line ⟨-0.0, 2.5, 1e-7⟩ (.inverseTime none)
    let other := line ⟨0.0, 2.5, 1e-7⟩ (.inverseTime none)
    ofJson? request.toJson = some request ∧ other.toJson ≠ request.toJson := by
  intro request other
  have hfinite : ∀ value ∈ request.doubles, value.isFinite = true := by
    change ∀ value ∈ [-0.0, 2.5, 1e-7], _
    decide +kernel
  have hfinite' : ∀ value ∈ other.doubles, value.isFinite = true := by
    change ∀ value ∈ [0.0, 2.5, 1e-7], _
    decide +kernel
  obtain ⟨hread, hinj⟩ := toJson_faithful hfinite
  refine ⟨hread ?_, fun hsame => ?_⟩
  · change ∀ value ∈ [-0.0, 2.5, 1e-7], _ → Json.ReadsBack value
    simp only [List.forall_mem_cons]
    exact ⟨fun _ => rfl, fun _ => rfl, fun _ => rfl, by simp⟩
  · obtain ⟨htarget, -⟩ := Request.line.inj (hinj other hfinite' hsame)
    obtain ⟨hzero, -⟩ := Point.mk.inj htarget
    have hbits : (0.0 : Float).toBits ≠ (-0.0 : Float).toBits := by decide +kernel
    exact hbits (congrArg Float.toBits hzero)

end Request

end Gcode
