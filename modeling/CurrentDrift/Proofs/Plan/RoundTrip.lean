import CurrentDrift.Plan.Printer
import CurrentDrift.Proofs.Json.RoundTrip

/-! # Reading written plans

A number that is not finite is written as null. Where a number must be given the plan cannot be read
then, and where it may be left out it is missing. Nothing else is changed. -/

namespace CurrentDrift

/-! ## Numbers -/

namespace Json

variable {x : Float}

/-- A number that is read as it was written, if it is written as a number at all. -/
def IsReadBack (x : Float) : Prop := x.isFinite = true → double? (ofFloat x) = some x

instance (x : Float) : Decidable (IsReadBack x) := inferInstanceAs (Decidable (_ → _))

theorem double?_ofFloat (h : IsReadBack x) :
    double? (ofFloat x) = if x.isFinite then some x else none := by
  split
  · next hx => exact h hx
  · next hx =>
    rw [ofFloat, if_neg hx]
    rfl

theorem isSound_ofFloat (h : IsReadBack x) : (ofFloat x).isSound = true := by
  by_cases hx : x.isFinite = true
  · have hread := h hx
    rw [ofFloat, if_pos hx] at hread ⊢
    rw [isSound]
    exact Option.isSome_of_eq_some hread
  · rw [ofFloat, if_neg hx]
    rfl

theorem isPlain_ofFloat (h : IsReadBack x) : (ofFloat x).isPlain = true := by
  by_cases hx : x.isFinite = true
  · have hread := h hx
    rw [ofFloat, if_pos hx] at hread ⊢
    rw [isPlain]
    exact Option.isSome_of_isSome_bind (Option.isSome_of_eq_some hread)
  · rw [ofFloat, if_neg hx]
    rfl

@[simp]
theorem depth_ofFloat (x : Float) : (ofFloat x).depth = 0 := by
  unfold ofFloat
  split <;> rfl

theorem orNull?_of_ne_null {α : Type} {read : Json → Option α} {v : Json} (h : v ≠ .null) :
    orNull? read v = (read v).map some := by
  unfold orNull?
  split
  · contradiction
  · rfl

/-- A number that may be missing is missing if it is not finite. -/
theorem orNull?_ofOption_ofFloat {o : Option Float} (h : ∀ x ∈ o, IsReadBack x) :
    orNull? double? (ofOption ofFloat o) = some (o.filter Float.isFinite) := by
  cases o with
  | none => rfl
  | some x =>
      by_cases hx : x.isFinite = true
      · have hread := h x rfl hx
        rw [ofOption, Option.filter_some, if_pos hx]
        rw [ofFloat, if_pos hx] at hread ⊢
        rw [orNull?_of_ne_null Json.noConfusion, hread]
        rfl
      · rw [ofOption, ofFloat, if_neg hx, Option.filter_some, if_neg hx]
        rfl

/-! ## Parts -/

@[simp]
theorem allPlain_eq_all (vs : List Json) : allPlain vs = vs.all isPlain := by
  induction vs with
  | nil => rfl
  | cons v vs ih => rw [allPlain, ih, List.all_cons]

@[simp]
theorem isPlain_ofMembers (ms : List (String × Json)) :
    (ofMembers ms).isPlain = ms.all fun m => m.2.isPlain := by
  rw [ofMembers, isPlain]
  induction ms with
  | nil => rfl
  | cons m ms ih => rw [List.map_cons, allPlainMembers, ih, Option.isSome_some, Bool.true_and,
      List.all_cons]

@[simp]
theorem isSound_ofMembers (ms : List (String × Json)) :
    (ofMembers ms).isSound = ms.all fun m => m.2.isSound := by
  rw [ofMembers, isSound]
  induction ms with
  | nil => rfl
  | cons m ms ih => rw [List.map_cons, allSoundMembers, ih, Option.isSome_some, Bool.true_and,
      List.all_cons]

theorem string?_ofString (s : String) : (ofString s).string? = some s := by
  simp [ofString, string?]

@[simp]
theorem isPlain_ofString (s : String) : (ofString s).isPlain = true := rfl

theorem isPlain_ofNat (n : Nat) : (ofNat n).isPlain = true := by
  rw [ofNat, isPlain, ofLiteral?_digits, Option.isSome_some]

theorem isPlain_ofOption {α : Type} {write : α → Json} {o : Option α}
    (h : ∀ x ∈ o, (write x).isPlain = true) : (ofOption write o).isPlain = true := by
  cases o with
  | none => rfl
  | some x => exact h x rfl

/-- A list is read if all its items are. -/
theorem listOf?_map {α β : Type} {read : Json → Option β} {write : α → Json} {g : α → β}
    {p : α → Bool} {l : List α} (h : ∀ x ∈ l, read (write x) = if p x then some (g x) else none) :
    listOf? read (.array (l.map write)) = if l.all p then some (l.map g) else none := by
  rw [listOf?]
  induction l with
  | nil => rfl
  | cons x l ih =>
      obtain ⟨hx, hl⟩ := List.forall_mem_cons.mp h
      rw [List.map_cons, List.mapM_cons, hx, ih hl, List.all_cons, List.map_cons]
      cases p x <;> cases l.all p <;> rfl

theorem bind_ite_none {α β : Type} {b : Bool} {a : α} {f : α → Option β} :
    (if b then some a else none).bind f = if b then f a else none := by
  cases b <;> rfl

theorem ite_ite_none {α : Type} {a b : Bool} {x : Option α} :
    (if a then if b then x else none else none) = if a && b then x else none := by
  cases a <;> rfl

end Json

open Json

/-! ## The numbers of a plan -/

/-- The numbers that must be given. -/
def Degrees.numbers (d : Degrees) : List Float := [d.long, d.lat]

def ScalePlan.numbers : ScalePlan → List Float
  | unscaled => []
  | atSpeed value reference => value :: reference.numbers
  | likePattern _ reference => reference.numbers

def SpreadParams.numbers (p : SpreadParams Float) : List Float :=
  [p.lifetime, p.delay, p.up, p.down, p.left, p.right]

def SeriesPlan.numbers (t : SeriesPlan) : List Float := t.points.flatMap fun (x, y) => [x, y]

def PatternPlan.numbers (p : PatternPlan) : List Float :=
  p.scale.numbers ++ [p.eddy.diffusion, p.eddy.halfSpeed] ++ p.spread.numbers ++
    p.timeSeries.toList.flatMap SeriesPlan.numbers

def MapPlan.numbers (m : MapPlan) : List Float := m.patterns.flatMap PatternPlan.numbers

def RunPlan.numbers (c : RunPlan) : List Float :=
  [c.start, c.duration, c.step] ++ c.particles.flatMap Degrees.numbers ++
    c.maps.flatMap MapPlan.numbers

/-- The numbers that may be missing and are given. -/
def PatternPlan.optionalNumbers (p : PatternPlan) : List Float :=
  p.timeSeries.toList.flatMap (fun t => t.hydrology.toList) ++ p.activeFrom.toList ++
    p.activeUntil.toList

def MapPlan.optionalNumbers (m : MapPlan) : List Float :=
  m.patterns.flatMap PatternPlan.optionalNumbers

def RunPlan.optionalNumbers (c : RunPlan) : List Float := c.maps.flatMap MapPlan.optionalNumbers

/-- A plan without those numbers that may be missing and are not finite. -/
def SeriesPlan.withoutNonFinite (t : SeriesPlan) : SeriesPlan :=
  { t with hydrology := t.hydrology.filter Float.isFinite }

def PatternPlan.withoutNonFinite (p : PatternPlan) : PatternPlan :=
  { p with
    timeSeries := p.timeSeries.map SeriesPlan.withoutNonFinite
    activeFrom := p.activeFrom.filter Float.isFinite
    activeUntil := p.activeUntil.filter Float.isFinite }

def MapPlan.withoutNonFinite (m : MapPlan) : MapPlan :=
  { m with patterns := m.patterns.map PatternPlan.withoutNonFinite }

def RunPlan.withoutNonFinite (c : RunPlan) : RunPlan :=
  { c with maps := c.maps.map MapPlan.withoutNonFinite }

/-! ## Reading what was written -/

theorem Degrees.ofJson?_toJson {d : Degrees} (h : ∀ x ∈ d.numbers, IsReadBack x) :
    ofJson? d.toJson = if d.numbers.all Float.isFinite then some d else none := by
  simp only [numbers, List.forall_mem_cons] at h
  obtain ⟨hlong, hlat, -⟩ := h
  simp only [ofJson?, toJson, pair?, Option.bind_eq_bind, double?_ofFloat hlong,
    double?_ofFloat hlat, bind_ite_none, ite_ite_none]
  simp only [numbers, List.all_cons, List.all_nil, Bool.and_true]
  split <;> rfl

theorem Degrees.isSound_toJson {d : Degrees} (h : ∀ x ∈ d.numbers, IsReadBack x) :
    d.toJson.isSound = true := by
  simp only [numbers, List.forall_mem_cons] at h
  simp [toJson, isSound, allSound, isSound_ofFloat h.1, isSound_ofFloat h.2.1]

@[simp]
theorem Degrees.depth_toJson (d : Degrees) : d.toJson.depth = 1 := by
  simp [toJson, depth, depthList]

theorem SpreadParams.ofJson?_toJson {p : SpreadParams Float} (h : ∀ x ∈ p.numbers, IsReadBack x) :
    ofJson? p.toJson = if p.numbers.all Float.isFinite then some p else none := by
  simp only [numbers, List.forall_mem_cons] at h
  obtain ⟨hlifetime, hdelay, hup, hdown, hleft, hright, -⟩ := h
  rw [ofJson?, toJson, members?_ofMembers ?names ?distinct]
  case names => rfl
  case distinct => decide
  simp only [List.map, Option.bind_eq_bind, Option.bind_some, orDefault, double?_ofFloat hlifetime,
    double?_ofFloat hdelay, double?_ofFloat hup, double?_ofFloat hdown, double?_ofFloat hleft,
    double?_ofFloat hright, bind_ite_none, ite_ite_none]
  simp [numbers]

namespace ScalePlan

/-- The kind of a scale is split off if it stands first and only there. -/
theorem untag?_cons {tag : String} {ms : List (Option (List Char) × Json)}
    (h : ∀ m ∈ ms, m.1 ≠ some "type".toList) :
    untag? (.object ((some "type".toList, ofString tag) :: ms)) = some (tag, .object ms) := by
  have htags : ms.filter (fun m => m.1 = some "type".toList) = [] :=
    List.filter_eq_nil_iff.mpr fun m hm => by simpa using h m hm
  have hothers : ms.filter (not ∘ fun m => m.1 = some "type".toList) = ms :=
    List.filter_eq_self.mpr fun m hm => by simpa using h m hm
  rw [untag?, List.partition_eq_filter_filter, List.filter_cons, if_pos (by simp),
    List.filter_cons, if_neg (by simp), htags, hothers]
  simp only [string?_ofString]
  rfl

theorem untag?_ofMembers {tag : String} {ms : List (String × Json)} (h : "type" ∉ ms.map Prod.fst) :
    untag? (ofMembers (("type", ofString tag) :: ms)) = some (tag, ofMembers ms) := by
  refine untag?_cons (List.forall_mem_map.mpr fun m hm heq => h ?_)
  exact List.mem_map.mpr ⟨m, hm, String.toList_inj.mp (Option.some.inj heq)⟩

theorem ofJson?_of_untag? {j : Json} {tag : String} {rest : Json} (hsound : j.isSound = true)
    (hdepth : j.depth ≤ 2) (htag : untag? j = some (tag, rest)) : ofJson? j = ofTag? tag rest := by
  have hlimit : outerDepth + (j.depth - 1) < depthLimit := by
    rw [outerDepth, depthLimit]
    omega
  rw [ofJson?, hsound, decide_eq_true hlimit, htag]
  rfl

theorem ofJson?_toJson {s : ScalePlan} (h : ∀ x ∈ s.numbers, IsReadBack x) :
    ofJson? s.toJson = if s.numbers.all Float.isFinite then some s else none := by
  cases s with
  | unscaled => rfl
  | atSpeed value reference =>
      obtain ⟨hvalue, hreference⟩ := List.forall_mem_cons.mp h
      rw [toJson, ofJson?_of_untag? ?sound ?depth (untag?_ofMembers ?tag)]
      case sound =>
        simp [reference.isSound_toJson hreference, isSound_ofFloat hvalue, ofString, isSound]
      case depth => simp [ofMembers, depth, depthMembers, ofString, reference.depth_toJson]
      case tag => simp
      rw [ofTag?, members?_ofMembers ?names ?distinct]
      case names => rfl
      case distinct => decide
      simp only [List.map, Option.bind_eq_bind, Option.bind_some, double?_ofFloat hvalue,
        Degrees.ofJson?_toJson hreference, bind_ite_none, ite_ite_none]
      simp [numbers]
  | likePattern name reference =>
      rw [toJson, ofJson?_of_untag? ?sound ?depth (untag?_ofMembers ?tag)]
      case sound => simp [reference.isSound_toJson h, ofString, isSound]
      case depth => simp [ofMembers, depth, depthMembers, ofString, reference.depth_toJson]
      case tag => simp
      rw [ofTag?, members?_ofMembers ?names ?distinct]
      case names => rfl
      case distinct => decide
      simp only [List.map, Option.bind_eq_bind, Option.bind_some, string?_ofString,
        Degrees.ofJson?_toJson h, bind_ite_none]
      simp [numbers]

end ScalePlan

theorem Extrapolation.ofJson?_ofString (e : Extrapolation) : ofJson? (ofString e.key) = some e := by
  cases e <;> rfl

theorem SeriesPlan.ofJson?_toJson {t : SeriesPlan} (h : ∀ x ∈ t.numbers, IsReadBack x)
    (h' : ∀ x ∈ t.hydrology, IsReadBack x) :
    ofJson? t.toJson =
      if t.numbers.all Float.isFinite then some t.withoutNonFinite else none := by
  have hpoints : listOf? pair? (.array (t.points.map fun (x, y) => .array [ofFloat x, ofFloat y])) =
      if t.numbers.all Float.isFinite then some t.points else none := by
    have hpoint : ∀ xy ∈ t.points, pair? (.array [ofFloat xy.1, ofFloat xy.2]) =
        if [xy.1, xy.2].all Float.isFinite then some xy else none := by
      intro xy hxy
      have hboth : ∀ x ∈ [xy.1, xy.2], IsReadBack x := List.forall_mem_flatMap.mp h xy hxy
      simp only [List.forall_mem_cons] at hboth
      simp only [pair?, Option.bind_eq_bind, double?_ofFloat hboth.1, double?_ofFloat hboth.2.1,
        bind_ite_none, ite_ite_none]
      simp
    rw [numbers, List.all_flatMap]
    exact (listOf?_map hpoint).trans (by rw [List.map_id'])
  rw [ofJson?, toJson, members?_ofMembers ?names ?distinct]
  case names => rfl
  case distinct => decide
  simp only [List.map, Option.bind_eq_bind, Option.bind_some, orDefault, hpoints,
    Extrapolation.ofJson?_ofString, orNull?_ofOption_ofFloat h', bool?, bind_ite_none]
  rfl

theorem PatternPlan.ofJson?_toJson {p : PatternPlan} (h : ∀ x ∈ p.numbers, IsReadBack x)
    (h' : ∀ x ∈ p.optionalNumbers, IsReadBack x) :
    ofJson? p.toJson =
      if p.numbers.all Float.isFinite then some p.withoutNonFinite else none := by
  simp only [numbers, List.forall_mem_append, List.forall_mem_cons] at h
  obtain ⟨⟨⟨hscale, hdiffusion, hspeed, -⟩, hspread⟩, hseries⟩ := h
  simp only [optionalNumbers, List.forall_mem_append, Option.mem_toList] at h'
  obtain ⟨⟨hhydrology, hfrom⟩, huntil⟩ := h'
  have htime : orNull? SeriesPlan.ofJson? (ofOption SeriesPlan.toJson p.timeSeries) =
      if (p.timeSeries.toList.flatMap SeriesPlan.numbers).all Float.isFinite then
        some (p.timeSeries.map SeriesPlan.withoutNonFinite) else none := by
    cases htime : p.timeSeries with
    | none => rfl
    | some t =>
        simp only [htime, Option.toList_some, List.flatMap_singleton, Option.mem_toList]
          at hseries hhydrology
        rw [ofOption, orNull?_of_ne_null Json.noConfusion,
          SeriesPlan.ofJson?_toJson hseries hhydrology]
        simp only [Option.toList_some, List.flatMap_singleton]
        split <;> rfl
  rw [ofJson?, toJson, members?_ofMembers ?names ?distinct]
  case names => rfl
  case distinct => decide
  simp only [List.map, Option.bind_eq_bind, Option.bind_some, orDefault, string?_ofString,
    ScalePlan.ofJson?_toJson hscale, double?_ofFloat hdiffusion, double?_ofFloat hspeed,
    SpreadParams.ofJson?_toJson hspread, htime, bool?, orNull?_ofOption_ofFloat hfrom,
    orNull?_ofOption_ofFloat huntil, bind_ite_none, ite_ite_none]
  simp only [numbers, List.all_append, List.all_cons, List.all_nil, Bool.and_true, Bool.and_assoc]
  rfl

theorem MapPlan.ofJson?_toJson {m : MapPlan} (h : ∀ x ∈ m.numbers, IsReadBack x)
    (h' : ∀ x ∈ m.optionalNumbers, IsReadBack x) :
    ofJson? m.toJson =
      if m.numbers.all Float.isFinite then some m.withoutNonFinite else none := by
  have hpatterns : listOf? PatternPlan.ofJson? (.array (m.patterns.map PatternPlan.toJson)) =
      if m.patterns.all (fun p => p.numbers.all Float.isFinite) then
        some (m.patterns.map PatternPlan.withoutNonFinite) else none :=
    listOf?_map fun p hp => PatternPlan.ofJson?_toJson (List.forall_mem_flatMap.mp h p hp)
      (List.forall_mem_flatMap.mp h' p hp)
  rw [ofJson?, toJson, members?_ofMembers ?names ?distinct]
  case names => rfl
  case distinct => decide
  simp only [List.map, Option.bind_eq_bind, Option.bind_some, orDefault, string?_ofString,
    hpatterns, bind_ite_none, numbers, List.all_flatMap]
  rfl

theorem RunPlan.ofJson?_toJson {c : RunPlan} (h : ∀ x ∈ c.numbers, IsReadBack x)
    (h' : ∀ x ∈ c.optionalNumbers, IsReadBack x) :
    ofJson? c.toJson =
      if c.numbers.all Float.isFinite then some c.withoutNonFinite else none := by
  simp only [numbers, List.forall_mem_append, List.forall_mem_cons] at h
  obtain ⟨⟨⟨hstart, hduration, hstep, -⟩, hparticles⟩, hmaps⟩ := h
  have hseed : orNull? word? (ofOption (fun w : UInt64 => ofNat w.toNat) c.seed) = some c.seed := by
    cases c.seed with
    | none => rfl
    | some w => rw [ofOption, orNull?_of_ne_null Json.noConfusion, word?_ofNat, Option.map_some]
  have hpoints : listOf? Degrees.ofJson? (.array (c.particles.map Degrees.toJson)) =
      if c.particles.all (fun d => d.numbers.all Float.isFinite) then some c.particles else none :=
    (listOf?_map fun d hd => Degrees.ofJson?_toJson
      (List.forall_mem_flatMap.mp hparticles d hd)).trans (by rw [List.map_id'])
  have hplans : listOf? MapPlan.ofJson? (.array (c.maps.map MapPlan.toJson)) =
      if c.maps.all (fun m => m.numbers.all Float.isFinite) then
        some (c.maps.map MapPlan.withoutNonFinite) else none :=
    listOf?_map fun m hm => MapPlan.ofJson?_toJson (List.forall_mem_flatMap.mp hmaps m hm)
      (List.forall_mem_flatMap.mp h' m hm)
  rw [ofJson?, toJson, members?_ofMembers ?names ?distinct]
  case names => rfl
  case distinct => decide
  simp only [List.map, Option.bind_eq_bind, Option.bind_some, orDefault, double?_ofFloat hstart,
    double?_ofFloat hduration, double?_ofFloat hstep, bool?, hseed, hpoints, hplans, bind_ite_none,
    ite_ite_none]
  simp only [numbers, List.all_append, List.all_cons, List.all_nil, List.all_flatMap, Bool.and_true,
    Bool.and_assoc]
  rfl

/-! ## The text of a plan -/

theorem Degrees.isPlain_toJson {d : Degrees} (h : ∀ x ∈ d.numbers, IsReadBack x) :
    d.toJson.isPlain = true := by
  simp only [numbers, List.forall_mem_cons] at h
  simp [toJson, isPlain, isPlain_ofFloat h.1, isPlain_ofFloat h.2.1]

theorem ScalePlan.isPlain_toJson {s : ScalePlan} (h : ∀ x ∈ s.numbers, IsReadBack x) :
    s.toJson.isPlain = true := by
  cases s with
  | unscaled => rfl
  | atSpeed value reference =>
      obtain ⟨hvalue, hreference⟩ := List.forall_mem_cons.mp h
      simp [toJson, isPlain_ofFloat hvalue, Degrees.isPlain_toJson hreference]
  | likePattern name reference =>
      simp [toJson, Degrees.isPlain_toJson h]

theorem SpreadParams.isPlain_toJson {p : SpreadParams Float} (h : ∀ x ∈ p.numbers, IsReadBack x) :
    p.toJson.isPlain = true := by
  simp only [numbers, List.forall_mem_cons] at h
  obtain ⟨hlifetime, hdelay, hup, hdown, hleft, hright, -⟩ := h
  simp [toJson, isPlain_ofFloat hlifetime, isPlain_ofFloat hdelay, isPlain_ofFloat hup,
    isPlain_ofFloat hdown, isPlain_ofFloat hleft, isPlain_ofFloat hright]

theorem SeriesPlan.isPlain_toJson {t : SeriesPlan} (h : ∀ x ∈ t.numbers, IsReadBack x)
    (h' : ∀ x ∈ t.hydrology, IsReadBack x) : t.toJson.isPlain = true := by
  have hpoint : ∀ xy ∈ t.points, (ofFloat xy.1).isPlain = true ∧ (ofFloat xy.2).isPlain = true := by
    intro xy hxy
    have hboth := List.forall_mem_flatMap.mp h xy hxy
    exact ⟨isPlain_ofFloat (hboth xy.1 (by simp)), isPlain_ofFloat (hboth xy.2 (by simp))⟩
  have hhydrology := isPlain_ofOption fun x hx => isPlain_ofFloat (h' x hx)
  simpa [toJson, isPlain, hhydrology] using fun x y hxy => hpoint (x, y) hxy

theorem PatternPlan.isPlain_toJson {p : PatternPlan} (h : ∀ x ∈ p.numbers, IsReadBack x)
    (h' : ∀ x ∈ p.optionalNumbers, IsReadBack x) : p.toJson.isPlain = true := by
  simp only [numbers, List.forall_mem_append, List.forall_mem_cons] at h
  obtain ⟨⟨⟨hscale, hdiffusion, hspeed, -⟩, hspread⟩, hseries⟩ := h
  simp only [optionalNumbers, List.forall_mem_append, Option.mem_toList] at h'
  obtain ⟨⟨hhydrology, hfrom⟩, huntil⟩ := h'
  simp only [List.forall_mem_flatMap, Option.mem_toList] at hseries hhydrology
  have htime := isPlain_ofOption fun t ht =>
    SeriesPlan.isPlain_toJson (hseries t ht) (hhydrology t ht)
  have hfirst := isPlain_ofOption fun x hx => isPlain_ofFloat (hfrom x hx)
  have hlast := isPlain_ofOption fun x hx => isPlain_ofFloat (huntil x hx)
  simp [toJson, isPlain, ScalePlan.isPlain_toJson hscale, isPlain_ofFloat hdiffusion,
    isPlain_ofFloat hspeed, SpreadParams.isPlain_toJson hspread, htime, hfirst, hlast]

theorem MapPlan.isPlain_toJson {m : MapPlan} (h : ∀ x ∈ m.numbers, IsReadBack x)
    (h' : ∀ x ∈ m.optionalNumbers, IsReadBack x) : m.toJson.isPlain = true := by
  have hpatterns : ∀ p ∈ m.patterns, p.toJson.isPlain = true := fun p hp =>
    PatternPlan.isPlain_toJson (List.forall_mem_flatMap.mp h p hp)
      (List.forall_mem_flatMap.mp h' p hp)
  simpa [toJson, isPlain] using hpatterns

theorem RunPlan.isPlain_toJson {c : RunPlan} (h : ∀ x ∈ c.numbers, IsReadBack x)
    (h' : ∀ x ∈ c.optionalNumbers, IsReadBack x) : c.toJson.isPlain = true := by
  simp only [numbers, List.forall_mem_append, List.forall_mem_cons] at h
  obtain ⟨⟨⟨hstart, hduration, hstep, -⟩, hparticles⟩, hmaps⟩ := h
  have hseed := isPlain_ofOption (o := c.seed) fun w _ => isPlain_ofNat w.toNat
  have hpoints : ∀ d ∈ c.particles, d.toJson.isPlain = true := fun d hd =>
    Degrees.isPlain_toJson (List.forall_mem_flatMap.mp hparticles d hd)
  have hplans : ∀ m ∈ c.maps, m.toJson.isPlain = true := fun m hm =>
    MapPlan.isPlain_toJson (List.forall_mem_flatMap.mp hmaps m hm)
      (List.forall_mem_flatMap.mp h' m hm)
  simpa [toJson, isPlain, isPlain_ofFloat hstart, isPlain_ofFloat hduration, isPlain_ofFloat hstep,
    hseed] using ⟨hpoints, hplans⟩

/-- The plan in the text of a plan, before it is checked. -/
theorem RunPlan.parse?_toText {c : RunPlan} (h : ∀ x ∈ c.numbers, IsReadBack x)
    (h' : ∀ x ∈ c.optionalNumbers, IsReadBack x) :
    (parse? c.toText).bind ofJson? =
      if c.numbers.all Float.isFinite then some c.withoutNonFinite else none := by
  rw [toText, pretty, parse?_write _ (isPlain_toJson h h'), Option.bind_some, ofJson?_toJson h h']

end CurrentDrift
