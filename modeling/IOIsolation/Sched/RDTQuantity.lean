import IOIsolation.Sched.RDTClasses
import IOIsolation.Sched.Context

/-!
# Sched.RDTQuantity

The rest of the RDT-quantity handler: reading a pod's annotation (`Parse`, `GetRequestByAnnotation`),
admission (`CanAdmitPod`), and building a node's cache entry from its configuration and its list
of reserved pods (`AddCacheNodeInfo`, `InitNodeStatus`).

`addPod_eq_enterClass` says that `AddPod` and one turn of the loop of `InitNodeStatus` are the same
operation on the classes.
-/

namespace IOIsolation.Sched.RDTQuantity

open Lib Outcome

/-! ## Amounts in the annotation -/

inductive NumError where
  | invalid
  | outOfRange
  deriving DecidableEq

def NumError.text (num : String) : NumError → String
  | invalid => s!"strconv.ParseInt: parsing \"{num}\": invalid syntax"
  | outOfRange => s!"strconv.ParseInt: parsing \"{num}\": value out of range"

/-- The digit loop of `ParseUint` for ten bits. -/
def parseDigits : List Char → Nat → Except NumError Nat
  | [], n => .ok n
  | c :: cs, n =>
    if c.isDigit then
      let n := n * 10 + (c.toNat - '0'.toNat)
      if n > 1023 then .error .outOfRange else parseDigits cs n
    else .error .invalid

def parseMagnitude (digits : List Char) : Except NumError Nat :=
  if digits = [] then .error .invalid else parseDigits digits 0

/-- `strconv.ParseInt(s, 10, 10)`: a signed number of ten bits. -/
def parseInt : List Char → Except NumError Int
  | '-' :: digits => do
    let n ← parseMagnitude digits
    if n > 512 then throw .outOfRange else return -(n : Int)
  | s => do
    let n ← parseMagnitude (if s.head? = some '+' then s.tail else s)
    if n ≥ 512 then throw .outOfRange else return n

/-- `HasSuffix` and `TrimSuffix` for a unit. -/
def trimUnit (unit s : String) : Option (List Char) :=
  if unit.toList <:+ s.toList then
    some (s.toList.take (s.toList.length - unit.toList.length))
  else none

/-- The first of the units the text ends in decides; an empty text is zero. -/
def parseAmount (units : List (String × ℚ)) (missing s : String) : Except String ℚ :=
  if s = "" then .ok 0
  else
    match units with
    | [] => .error missing
    | (unit, factor) :: units =>
      match trimUnit unit s with
      | some number =>
        match parseInt number with
        | .ok value => .ok (value * factor)
        | .error err => .error (err.text (String.ofList number))
      | none => parseAmount units missing s

def parseL3 : String → Except String ℚ :=
  parseAmount [("MiB", 1)] "missing 'MiB' value from L3Resource"

def parseMb : String → Except String ℚ :=
  parseAmount [("GBps", 1024), ("MBps", 1)] "missing 'GBps' or 'MBps' value from MbResource"

/-! ## Which texts are amounts -/

def digitsValue (ds : List Char) : Nat :=
  ds.foldl (fun n c => n * 10 + (c.toNat - '0'.toNat)) 0

/-- The text is empty, or a number with one of the units; `number` says which texts are numbers. -/
def Denotes (number : List Char → Int → Prop) (units : List (String × ℚ)) (s : String) (v : ℚ) :
    Prop :=
  s = "" ∧ v = 0 ∨ ∃ u ∈ units, ∃ cs n, s.toList = cs ++ u.1.toList ∧ number cs n ∧ v = n * u.2

/-- A decimal integer of 63 bits. -/
def IsNumber (cs : List Char) (n : Int) : Prop :=
  cs ≠ [] ∧ (∀ c ∈ cs, c.isDigit) ∧ digitsValue cs < 2 ^ 63 ∧ n = digitsValue cs

/-- The two parsers accept what denotes an amount, with that amount, and nothing else. -/
def Exact (s : String) : Prop :=
  ∀ v, (parseL3 s = .ok v ↔ Denotes IsNumber [("MiB", 1)] s v) ∧
    (parseMb s = .ok v ↔ Denotes IsNumber [("GBps", 1024), ("MBps", 1)] s v)

theorem parseDigits_ok_iff (cs : List Char) (n m : Nat) : parseDigits cs n = .ok m ↔
    (∀ c ∈ cs, c.isDigit) ∧ m = cs.foldl (fun n c => n * 10 + (c.toNat - '0'.toNat)) n ∧
      (cs = [] ∨ m ≤ 1023) := by
  have hgrow : ∀ (cs : List Char) n,
      n ≤ cs.foldl (fun n c => n * 10 + (c.toNat - '0'.toNat)) n := by
    intro cs
    induction cs with
    | nil => exact fun n => le_rfl
    | cons c cs ih => exact fun n => le_trans (by dsimp only; omega) (ih _)
  induction cs generalizing n with
  | nil => exact ⟨fun h => by cases h; simp, fun h => by rw [h.2.1]; rfl⟩
  | cons c cs ih =>
    have hle := hgrow cs (n * 10 + (c.toNat - '0'.toNat))
    simp only [parseDigits, List.forall_mem_cons, List.foldl_cons]
    split_ifs with hd hbig
    · refine iff_of_false (by simp) fun h => ?_
      rw [← h.2.1] at hle
      have := h.2.2
      simp at this
      omega
    · refine (ih _).trans ?_
      cases cs <;> simp_all
    · simp [hd]

theorem parseMagnitude_ok_iff (cs : List Char) (n : Nat) : parseMagnitude cs = .ok n ↔
    cs ≠ [] ∧ (∀ c ∈ cs, c.isDigit) ∧ n = digitsValue cs ∧ n ≤ 1023 := by
  unfold parseMagnitude
  split_ifs with h
  · simp [h]
  · rw [parseDigits_ok_iff]
    simp [h, digitsValue]

/-- What `ParseInt` makes of a text in front of a unit: digits below 512, with a sign if they have
one, and after a minus sign also 512. -/
theorem parseInt_ok_iff (cs : List Char) (n : Int) : parseInt cs = .ok n ↔
    ∃ ds, ds ≠ [] ∧ (∀ c ∈ ds, c.isDigit) ∧
      ((cs = ds ∨ cs = '+' :: ds) ∧ digitsValue ds < 512 ∧ n = digitsValue ds ∨
        cs = '-' :: ds ∧ digitsValue ds ≤ 512 ∧ n = -digitsValue ds) := by
  have hsign : ∀ {c : Char} {ds ds' : List Char}, c.isDigit = false → (∀ c ∈ ds, c.isDigit) →
      c :: ds' ≠ ds := by
    rintro c ds ds' hc hd rfl
    simp [hc] at hd
  unfold parseInt
  split
  · rename_i digits
    constructor
    · intro h
      obtain ⟨k, hk, h⟩ := except_bind_ok h
      obtain ⟨hne, hd, rfl, -⟩ := (parseMagnitude_ok_iff digits k).mp hk
      split_ifs at h with hbig
      cases h
      exact ⟨digits, hne, hd, .inr ⟨rfl, not_lt.mp hbig, rfl⟩⟩
    · rintro ⟨ds, hne, hd, ⟨h | h, -⟩ | ⟨h, hle, rfl⟩⟩
      · exact absurd h (hsign rfl hd)
      · cases h
      · cases h
        rw [(parseMagnitude_ok_iff digits _).mpr ⟨hne, hd, rfl, by omega⟩]
        exact if_neg (not_lt.mpr hle)
  · rename_i hminus
    constructor
    · intro h
      obtain ⟨k, hk, h⟩ := except_bind_ok h
      obtain ⟨hne, hd, hv, -⟩ := (parseMagnitude_ok_iff _ k).mp hk
      split_ifs at h with hbig
      cases h
      refine ⟨_, hne, hd, .inl ⟨?_, hv ▸ not_le.mp hbig, congrArg _ hv⟩⟩
      split_ifs with hplus
      · exact .inr (List.eq_cons_of_mem_head? hplus)
      · exact .inl rfl
    · rintro ⟨ds, hne, hd, ⟨h, hlt, rfl⟩ | ⟨h, -⟩⟩
      · have hds : (if cs.head? = some '+' then cs.tail else cs) = ds := by
          rcases h with rfl | rfl
          · exact if_neg fun hplus => hsign rfl hd (List.eq_cons_of_mem_head? hplus).symm
          · rfl
        rw [hds, (parseMagnitude_ok_iff ds _).mpr ⟨hne, hd, rfl, by omega⟩]
        exact if_neg (not_le.mpr hlt)
      · exact absurd h (hminus ds)

/-- The text in front of a unit is no number of 63 bits that needs more than ten bits, and no signed
number of ten bits. -/
def Readable (cs : List Char) : Prop :=
  ∀ ds, ds ≠ [] → (∀ c ∈ ds, c.isDigit) →
    (cs = ds → digitsValue ds < 512 ∨ 2 ^ 63 ≤ digitsValue ds) ∧
    (cs = '+' :: ds → 512 ≤ digitsValue ds) ∧ (cs = '-' :: ds → 512 < digitsValue ds)

theorem readable_iff (cs : List Char) : Readable cs ↔ ∀ n, parseInt cs = .ok n ↔ IsNumber cs n := by
  constructor
  · intro h n
    rw [parseInt_ok_iff]
    constructor
    · rintro ⟨ds, hne, hd, ⟨rfl | rfl, hlt, rfl⟩ | ⟨rfl, hle, -⟩⟩
      · exact ⟨hne, hd, hlt.trans (by decide), rfl⟩
      · exact absurd hlt (not_lt.mpr ((h ds hne hd).2.1 rfl))
      · exact absurd hle (not_le.mpr ((h ds hne hd).2.2 rfl))
    · rintro ⟨hne, hd, hlt, rfl⟩
      exact ⟨cs, hne, hd, .inl ⟨.inl rfl, ((h cs hne hd).1 rfl).resolve_right (not_le.mpr hlt), rfl⟩⟩
  · intro h ds hne hd
    have hsigned : ∀ n, ¬ IsNumber ('+' :: ds) n ∧ ¬ IsNumber ('-' :: ds) n :=
      fun n => ⟨fun hn => by simpa using hn.2.1 '+', fun hn => by simpa using hn.2.1 '-'⟩
    refine ⟨?_, ?_, ?_⟩
    · rintro rfl
      by_contra! hbig
      have hn := (h _).mpr ⟨hne, hd, hbig.2, rfl⟩
      obtain ⟨ds, -, -, ⟨rfl | rfl, hlt, -⟩ | ⟨rfl, -⟩⟩ := (parseInt_ok_iff _ _).mp hn
      · omega
      · simp at hd
      · simp at hd
    · rintro rfl
      by_contra! hlt
      exact (hsigned _).1 ((h _).mp ((parseInt_ok_iff _ _).mpr ⟨ds, hne, hd, .inl ⟨.inr rfl, hlt, rfl⟩⟩))
    · rintro rfl
      by_contra! hle
      exact (hsigned _).2 ((h _).mp ((parseInt_ok_iff _ _).mpr ⟨ds, hne, hd, .inr ⟨rfl, hle, rfl⟩⟩))

theorem trimUnit_eq_some {unit s : String} {number : List Char} :
    trimUnit unit s = some number ↔ s.toList = number ++ unit.toList := by
  unfold trimUnit
  split_ifs with h
  · obtain ⟨t, ht⟩ := h
    rw [← ht]
    simp [eq_comm]
  · exact iff_of_false (fun hs => by cases hs) fun hs => h ⟨number, hs.symm⟩

section units

variable {units : List (String × ℚ)} {missing s : String} {v : ℚ}
  (hends : ∀ u ∈ units, ∀ u' ∈ units, ∀ cs cs', cs ++ u.1.toList = cs' ++ u'.1.toList → u = u')

include hends

theorem parseAmount_ok_iff :
    parseAmount units missing s = .ok v ↔ Denotes (fun cs n => parseInt cs = .ok n) units s v := by
  by_cases hs : s = ""
  · subst hs
    have hv : parseAmount units missing "" = .ok 0 := by cases units <;> rfl
    rw [hv, Except.ok.injEq, eq_comm]
    refine ⟨fun h => .inl ⟨rfl, h⟩, fun h => h.elim (·.2) ?_⟩
    rintro ⟨u, -, cs, n, hs, hn, -⟩
    rw [(List.append_eq_nil_iff.mp hs.symm).1] at hn
    cases hn
  induction units with
  | nil => simp [parseAmount, Denotes, hs]
  | cons u units ih =>
    have ih := ih fun x hx y hy => hends x (List.mem_cons_of_mem u hx) y (List.mem_cons_of_mem u hy)
    simp only [parseAmount, hs, if_false, Denotes, false_and, false_or, List.exists_mem_cons_iff]
      at ih ⊢
    cases htrim : trimUnit u.1 s with
    | none =>
      refine ih.trans ⟨.inr, fun h => h.resolve_left ?_⟩
      rintro ⟨cs, n, hcs, -⟩
      rw [trimUnit_eq_some.mpr hcs] at htrim
      cases htrim
    | some number =>
      have hnumber := trimUnit_eq_some.mp htrim
      constructor
      · intro hok
        cases hp : parseInt number with
        | error err => simp [hp] at hok
        | ok n =>
          simp only [hp, Except.ok.injEq] at hok
          exact .inl ⟨number, n, hnumber, hp, hok.symm⟩
      · intro h
        obtain ⟨cs, n, hcs, hn, rfl⟩ : ∃ cs n, s.toList = cs ++ u.1.toList ∧
            parseInt cs = .ok n ∧ v = n * u.2 := by
          refine h.elim id fun ⟨u', hu', cs, n, hcs, h⟩ => ?_
          obtain rfl := hends u List.mem_cons_self u' (List.mem_cons_of_mem u hu') number cs
            (hnumber.symm.trans hcs)
          exact ⟨cs, n, hcs, h⟩
        rw [hnumber, List.append_cancel_right_eq] at hcs
        subst hcs
        simp only [hn]

/-- A parser is exact on a text if it reads what stands in front of a unit as a number should be
read. -/
theorem parseAmount_exact_iff (hunits : ∀ u ∈ units, u.1.toList ≠ [] ∧ u.2 ≠ 0) :
    (∀ v, parseAmount units missing s = .ok v ↔ Denotes IsNumber units s v) ↔
      ∀ u ∈ units, ∀ cs, s.toList = cs ++ u.1.toList → Readable cs := by
  simp only [parseAmount_ok_iff hends, readable_iff]
  constructor
  · intro h u hu cs hcs n
    -- a text ends in one unit only, and its amount determines the number in front of it
    have honly : ∀ number : List Char → Int → Prop,
        Denotes number units s (n * u.2) ↔ number cs n := by
      refine fun number => ⟨?_, fun hn => .inr ⟨u, hu, cs, n, hcs, hn, rfl⟩⟩
      rintro (⟨rfl, -⟩ | ⟨u', hu', cs', n', hcs', hn, hv⟩)
      · exact absurd (List.append_eq_nil_iff.mp hcs.symm).2 (hunits u hu).1
      obtain rfl := hends u hu u' hu' cs cs' (hcs.symm.trans hcs')
      obtain rfl : cs = cs' := List.append_cancel_right (hcs.symm.trans hcs')
      rwa [Int.cast_inj.mp (mul_right_cancel₀ (hunits u hu).2 hv)]
    rw [← honly IsNumber, ← h, honly]
  · intro h v
    exact or_congr_right (exists_congr fun u => and_congr_right fun hu => exists_congr fun cs =>
      exists_congr fun n => and_congr_right fun hcs => and_congr_left fun _ => h u hu cs hcs n)

end units

/-- The parsers are exact exactly on the texts whose number in front of a unit is readable. -/
theorem parsers_exact_iff (s : String) :
    Exact s ↔ ∀ unit ∈ ["MiB", "GBps", "MBps"], ∀ cs, s.toList = cs ++ unit.toList → Readable cs := by
  have hends : ∀ u ∈ [("GBps", (1024 : ℚ)), ("MBps", 1)], ∀ u' ∈ [("GBps", (1024 : ℚ)), ("MBps", 1)],
      u.1.toList.length = u'.1.toList.length ∧ (u.1.toList = u'.1.toList → u = u') := by
    decide +kernel
  rw [Exact, forall_and]
  unfold parseL3 parseMb
  rw [parseAmount_exact_iff (by simp) (by decide +kernel),
    parseAmount_exact_iff (fun u hu u' hu' cs cs' h => (hends u hu u' hu').2
      (List.append_inj_right' h (hends u hu u' hu').1)) (by decide +kernel)]
  simp

theorem not_exact : ¬ ∀ s, Exact s := by
  intro h
  have hlarge := ((h "512MiB" 512).1).mpr (.inr ⟨("MiB", 1), List.mem_cons_self, ['5', '1', '2'],
    512, rfl, ⟨by decide, List.all_eq_true.mp rfl, by decide +kernel, by decide +kernel⟩,
    by decide +kernel⟩)
  revert hlarge
  decide +kernel

/-! ## The annotation -/

/-- One half of the annotation: the two texts. -/
structure RDTResource where
  l3 : String
  mb : String
  deriving DecidableEq

structure RDTAnnotationResource where
  requests : RDTResource
  limits : RDTResource
  class_ : String
  deriving DecidableEq

def rdtQuantityConfigAnno : String := "rdt.quantity.resources.beta.kubernetes.io/resources"

/-- The annotation asks for cache or memory bandwidth. -/
def RDTAnnotationResource.Explicit (anno : RDTAnnotationResource) : Prop :=
  ¬ (anno.requests = ⟨"", ""⟩ ∧ anno.limits = ⟨"", ""⟩)

instance (anno : RDTAnnotationResource) : Decidable anno.Explicit :=
  inferInstanceAs (Decidable (¬ _))

def orElse (limit request : String) : String := if limit = "" then request else limit

/-- The class and the texts `GetRequestByAnnotation` works with. -/
def RDTAnnotationResource.complete (anno : RDTAnnotationResource) (podName : String) :
    Except String RDTAnnotationResource :=
  let class_ := if anno.class_ = "" then podName else anno.class_
  if anno.requests = ⟨"", ""⟩ ∧ anno.limits = ⟨"", ""⟩ then .ok { anno with class_ := BE }
  else if anno.requests.l3 = "" ∨ anno.requests.mb = "" then
    .error s!"pod {podName} does not have complete rdt quantity annotation"
  else
    .ok {
      requests := anno.requests
      limits := ⟨orElse anno.limits.l3 anno.requests.l3, orElse anno.limits.mb anno.requests.mb⟩
      class_ := class_ }

/-- A text that does not parse, in the words of the handler. -/
def cannotParse (s : String) (r : Except String ℚ) : Except String ℚ :=
  match r with
  | .ok v => .ok v
  | .error err => .error s!"cannot parse {s} to rdt quantity request/limit: {err}"

/-- The four amounts of a complete annotation, parsed in the order of the source. -/
def RDTAnnotationResource.amounts (anno : RDTAnnotationResource) : Except String Amounts := do
  let requestL3 ← cannotParse anno.requests.l3 (parseL3 anno.requests.l3)
  let limitL3 ← cannotParse anno.limits.l3 (parseL3 anno.limits.l3)
  let requestMb ← cannotParse anno.requests.mb (parseMb anno.requests.mb)
  let limitMb ← cannotParse anno.limits.mb (parseMb anno.limits.mb)
  return ⟨⟨requestL3, requestMb⟩, ⟨limitL3, limitMb⟩⟩

/-- Only the read field of the protocol's quantities is used. -/
def inOnly (amount : ℚ) : Quantity := ⟨amount, 0, 0, 0⟩

def requestOf (class_ : String) (a : Amounts) : IOResourceRequest :=
  { ioType := .rdtQuantity
    workloadType := .gaIndex
    devRequest := some {
      devName := class_
      request := some (inOnly a.requests.l3)
      limit := some (inOnly a.limits.l3)
      rawRequest := some (inOnly a.requests.mb)
      rawLimit := some (inOnly a.limits.mb) } }

theorem amountsOf_requestOf (class_ : String) (a : Amounts) :
    ∃ d, (requestOf class_ a).devRequest = some d ∧ d.devName = class_ ∧ amountsOf d = some a :=
  ⟨_, rfl, rfl, rfl⟩

/-- `GetRequestByAnnotation`: the class of the pod, and its only request. `unmarshal` decodes the
JSON text. -/
def getRequestByAnnotation (cache : Dict String Resource)
    (unmarshal : String → Except String RDTAnnotationResource) (pod : Pod) (node : String) :
    Except String (String × IOResourceRequest) :=
  match cache.lookup node with
  | none => .error "node not registered in cache"
  | some _ =>
    match pod.annotations.lookup rdtQuantityConfigAnno with
    | none => .error s!"pod {pod.name} does not have rdt quantity annotation"
    | some v =>
      match unmarshal v with
      | .error err => .error s!"cannot parse {v} to rdt quantity requests/limits: {err}"
      | .ok anno => do
        let anno ← anno.complete pod.name
        let a ← anno.amounts
        return (anno.class_, requestOf anno.class_ a)

/-! ## Admission -/

def noMatch : String := "pod request does not match the node's resource"

/-- A comparison that decides against the pod ends the check before the next field is read. -/
def require (p : Prop) [Decidable p] (rest : Outcome (Except String Unit)) :
    Outcome (Except String Unit) :=
  if p then rest else .done (.error noMatch)

def admitRequest (info : NodeInfo) (d : DeviceRequirement) : Outcome (Except String Unit) :=
  match info.classes.lookup d.devName with
  | some c =>
    if d.devName = BE then .done (.ok ())
    else do
      let limit ← Outcome.ofOption d.limit
      require (limit.inbps = c.limits.l3) do
        let request ← Outcome.ofOption d.request
        require (request.inbps = c.requests.l3) do
          let rawLimit ← Outcome.ofOption d.rawLimit
          require (rawLimit.inbps = c.limits.mb) do
            let rawRequest ← Outcome.ofOption d.rawRequest
            require (rawRequest.inbps = c.requests.mb) (.done (.ok ()))
  | none => do
    let be ← Outcome.ofOption (info.classes.lookup BE)
    let request ← Outcome.ofOption d.request
    require (be.requests.l3 ≥ request.inbps + info.beL3CapacityBaseline) do
      let rawRequest ← Outcome.ofOption d.rawRequest
      require (be.requests.mb ≥ rawRequest.inbps + info.beMBCapacityBaseline) (.done (.ok ()))

/-- `CanAdmitPod` (`none` is a request of another handler's type). -/
def canAdmitPod (cache : Dict String Resource) (nodeName : String)
    (rawRequest : Option IOResourceRequest) : Outcome (Except String Unit) :=
  match rawRequest with
  | none =>
    .done (.error "unable to convert state into RDTQuantityHandle's pod request format")
  | some requestInfo =>
    match cache.lookup nodeName with
    | none => .done (.error s!"node {nodeName} not registered in cache")
    | some ps => do
      let d ← Outcome.ofOption requestInfo.devRequest
      admitRequest ps.info d

theorem require_eq_ok {p : Prop} [Decidable p] {rest : Outcome (Except String Unit)} :
    require p rest = .done (.ok ()) ↔ p ∧ rest = .done (.ok ()) := by
  unfold require
  split_ifs with h <;> simp [h]

variable {d : DeviceRequirement}

/-- What an accepted request looks like: best effort, or the amounts of its class, or a new class
that leaves the best-effort class its baseline. -/
theorem admit_ok {info : NodeInfo} {a : Amounts} (ha : amountsOf d = some a)
    (h : admitRequest info d = .done (.ok ())) :
    match info.classes.lookup d.devName with
    | some c => d.devName = BE ∨ d.devName ≠ BE ∧ a = ⟨c.requests, c.limits⟩
    | none => ∃ be, info.classes.lookup BE = some be ∧
        a.requests.l3 + info.beL3CapacityBaseline ≤ be.requests.l3 ∧
        a.requests.mb + info.beMBCapacityBaseline ≤ be.requests.mb := by
  obtain ⟨dev, request, limit, rawRequest, rawLimit⟩ := d
  cases request with
  | none => simp [amountsOf] at ha
  | some request =>
    cases limit with
    | none => simp [amountsOf] at ha
    | some limit =>
      cases rawRequest with
      | none => simp [amountsOf] at ha
      | some rawRequest =>
        cases rawLimit with
        | none => simp [amountsOf] at ha
        | some rawLimit =>
          simp only [amountsOf, Option.some.injEq] at ha
          subst ha
          unfold admitRequest at h
          cases hc : info.classes.lookup dev with
          | some c =>
            simp only [hc, ofOption_some, done_bind] at h
            by_cases hbe : dev = BE
            · exact .inl hbe
            rw [if_neg hbe] at h
            simp only [require_eq_ok, and_true] at h
            obtain ⟨h1, h2, h3, h4⟩ := h
            refine .inr ⟨hbe, ?_⟩
            rw [h1, h2, h3, h4]
          | none =>
            simp only [hc, ofOption_some, done_bind, bind_eq_done,
              ofOption_eq_done, require_eq_ok, and_true] at h
            obtain ⟨be, hbe, h1, h2⟩ := h
            exact ⟨be, hbe, h1, h2⟩

/-! ## Building the entry of a node -/

def L3 : String := "l3"
def MB : String := "mb"

/-- The capacity of a device; a device that is not configured is all zero. -/
def capacityOf (rc : ResourceConfigSpec) (dev : String) : ℚ :=
  match rc.devices.lookup dev with
  | some info => info.capacityIn
  | none => 0

/-- What the best-effort class is to keep of a device. -/
def baselineOf (rc : ResourceConfigSpec) (dev : String) : ℚ :=
  match rc.devices.lookup dev with
  | some info => info.defaultIn
  | none => 0

/-- `AddCacheNodeInfo`: everything belongs to the best-effort class. -/
def addCacheNodeInfo (nodeName : String) (rc : ResourceConfigSpec) : Resource :=
  { nodeName := nodeName
    info := {
      beScore := 100
      l3CacheCapacity := capacityOf rc L3
      mbCapacity := capacityOf rc MB
      beL3CapacityBaseline := baselineOf rc L3
      beMBCapacityBaseline := baselineOf rc MB
      classes := Finmap.singleton BE
        ⟨⟨capacityOf rc L3, capacityOf rc MB⟩, ⟨capacityOf rc L3, capacityOf rc MB⟩, []⟩ } }

/-- One turn of the loop of `InitNodeStatus`: pod `puid` with request `d` enters its class. -/
def enterClass (puid : String) (d : DeviceRequirement) (classes : Dict String ClassInfo) :
    Outcome (Dict String ClassInfo) :=
  match classes.lookup d.devName with
  | some c =>
    if d.devName = BE then
      return classes.insert BE { c with podList := c.podList ++ [puid] }
    else do
      let a ← Outcome.ofOption (amountsOf d)
      if a.limits = c.limits ∧ a.requests = c.requests then
        return classes.insert d.devName { c with podList := c.podList ++ [puid] }
      else adjustBE (-1) a.requests (classes.insert d.devName ⟨a.requests, a.limits, [puid]⟩)
  | none => do
    let a ← Outcome.ofOption (amountsOf d)
    adjustBE (-1) a.requests (classes.insert d.devName ⟨a.requests, a.limits, [puid]⟩)

theorem addPod_eq_enterClass (ps : Resource) (pod : Pod) (r : IOResourceRequest) :
    addPod ps pod (some r) = (do
      let d ← ofOption r.devRequest
      let classes ← enterClass pod.uid d ps.info.classes
      return (ps.setClasses classes, .added [r])) := by
  simp only [addPod, enterClass]
  cases r.devRequest with
  | none => rfl
  | some d =>
    simp only [ofOption_some, done_bind]
    cases ps.info.classes.lookup d.devName with
    | none => cases amountsOf d <;> rfl
    | some c =>
      split_ifs
      · rfl
      cases amountsOf d with
      | none => rfl
      | some a =>
        simp only [ofOption_some, done_bind]
        split_ifs <;> rfl

/-- The request for a class in a pod's entry. The loop starts a new map at each, so the last one
stands. -/
def classRequest : List IOResourceRequest → Option DeviceRequirement →
    Outcome (Option DeviceRequirement)
  | [], found => .done found
  | rq :: rest, found =>
    if rq.ioType = .rdtQuantity then do
      let d ← Outcome.ofOption rq.devRequest
      classRequest rest (some d)
    else classRequest rest found

/-- The two loops of `InitNodeStatus`; `order` is the order in which they visit the pods. -/
def initPods (pods : Dict String PodRequest) :
    List String → Dict String ClassInfo → Outcome (Dict String ClassInfo)
  | [], classes => .done classes
  | puid :: order, classes =>
    match pods.lookup puid with
    | none => initPods pods order classes
    | some e => do
      match ← classRequest e.request none with
      | none => initPods pods order classes
      | some d => do
        let classes ← enterClass puid d classes
        initPods pods order classes

/-- `InitNodeStatus`; without a list of reserved pods it dereferences nil. -/
def initNodeStatus (ps : Resource) (ctx : ResourceIOContext) (order : List String) :
    Outcome Resource :=
  match ctx.getReservedPods ps.nodeName with
  | .ok pl => do
    let classes ← initPods pl.podList order ps.info.classes
    return ps.setClasses classes
  | .error _ => .panic

theorem classRequest_of_filter {rs : List IOResourceRequest} {r : IOResourceRequest}
    (hd : r.devRequest = some d) (h : rs.filter (fun x => x.ioType = .rdtQuantity) = [r]) :
    classRequest rs none = .done (some d) := by
  have hskip : ∀ (rs : List IOResourceRequest) (found : Option DeviceRequirement),
      rs.filter (fun x => x.ioType = .rdtQuantity) = [] → classRequest rs found = .done found := by
    intro rs
    induction rs with
    | nil => intro found _; rfl
    | cons x rs ih =>
      intro found hnil
      rw [List.filter_eq_nil_iff] at hnil
      have hx : x.ioType ≠ .rdtQuantity := by simpa using hnil x List.mem_cons_self
      rw [classRequest, if_neg hx]
      exact ih found (List.filter_eq_nil_iff.mpr fun y hy => hnil y (List.mem_cons_of_mem x hy))
  induction rs with
  | nil => cases h
  | cons x rs ih =>
    by_cases hx : x.ioType = .rdtQuantity
    · rw [List.filter_cons_of_pos (by simpa using hx), List.cons.injEq] at h
      obtain ⟨rfl, hrest⟩ := h
      rw [classRequest, if_pos hx, hd]
      exact hskip rs (some d) hrest
    · rw [List.filter_cons_of_neg (by simpa using hx)] at h
      rw [classRequest, if_neg hx]
      exact ih h

end IOIsolation.Sched.RDTQuantity
