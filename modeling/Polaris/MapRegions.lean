import Mathlib.Data.List.Sort
import Polaris.Lib.Runs
import Polaris.Lib.Text

namespace Polaris.MapRegions

open Polaris.Lib.Text

section Data

/-- The machine's numbers, as far as the geometry uses them. -/
structure Floats (R : Type) where
  lt : R → R → Bool
  add : R → R → R
  sub : R → R → R
  mul : R → R → R
  div : R → R → R
  ofInt : Int → R
  epsilon : R
  isFinite : R → Bool

/-- What the service takes from its surroundings. A palette colour is a
random one, for the region that it is picked for. -/
structure Env (R : Type) where
  floats : Floats R
  toLowerCase : String → String
  localeLe : String → String → Bool
  palette : String → String

structure MapRegion (R : Type) where
  id : String
  name : String
  polygon : List (R × R)
  color : Option String
  createdBy : Option String
  createdAt : String
  updatedAt : String
  deriving DecidableEq

structure Tag where
  name : String
  category : String
  color : String
  deriving DecidableEq

structure Asset (R : Type) where
  id : String
  assetType : String
  hostname : Option String := none
  latitude : Option R := none
  longitude : Option R := none
  controllerFortigate : Option String := none
  tags : List String := []
  deriving DecidableEq

structure State (R : Type) where
  regions : List (MapRegion R)
  registry : List Tag
  assets : List (Asset R)
  deriving DecidableEq

inductive Denied
  | validation (fields : List String)
  | app (httpStatus : Nat) (message : String)
  deriving DecidableEq

structure CreateBody (R : Type) where
  name : String
  polygon : List (R × R)
  color : Option String := none

structure UpdateBody (R : Type) where
  name : Option String := none
  polygon : Option (List (R × R)) := none
  color : Option String := none

end Data

section Validation

variable {R : Type} (E : Env R)

def MAX_VERTICES : Nat := 1000

def MAX_NAME : Nat := 64

def codeUnits (s : String) : Nat := s.toList.length + s.toList.countP fun c => 0xffff < c.toNat

def isControl (c : Char) : Bool := c.toNat < 0x20 || (0x7f ≤ c.toNat && c.toNat < 0xa0)

def validateName (name : String) : Except Denied String :=
  if trim name = "" then .error (.app 400 "Region name is required")
  else if MAX_NAME < codeUnits (trim name) then .error (.app 400 "Region name must be 64 characters or fewer")
  else if (trim name).toList.any isControl then .error
    (.app 400 "Region name cannot contain control characters")
  else .ok (trim name)

def isHexDigit (c : Char) : Bool := c.isDigit || ('a' ≤ c && c ≤ 'f') || ('A' ≤ c && c ≤ 'F')

def isHexColor (s : String) : Bool :=
  s.toList.head? = some '#' && s.toList.length = 7 && s.toList.tail.all isHexDigit

def validateColor (color : String) : Except Denied String :=
  if isHexColor (trim color) then .ok (E.toLowerCase (trim color))
  else .error (.app 400 "Color must be a 7-character hex string like \"#4fc3f7\"")

def between (lo hi : Int) (x : R) : Bool :=
  !(E.floats.lt x (E.floats.ofInt lo)) && !(E.floats.lt (E.floats.ofInt hi) x)

def validateVertex (p : R × R) : Except Denied (R × R) :=
  if !(E.floats.isFinite p.1 && E.floats.isFinite p.2) then
    .error (.app 400 "Polygon vertex coordinates must be finite numbers")
  else if !between E (-90) 90 p.1 then .error (.app 400 "Latitude must be between -90 and 90")
  else if !between E (-180) 180 p.2 then .error (.app 400 "Longitude must be between -180 and 180")
  else .ok p

def validatePolygon (polygon : List (R × R)) : Except Denied (List (R × R)) :=
  if polygon.length < 3 then .error (.app 400 "Polygon must have at least 3 vertices")
  else if MAX_VERTICES < polygon.length then .error (.app 400 "Polygon cannot have more than 1000 vertices")
  else polygon.mapM (validateVertex E)

def nameFits (name : String) : Bool := 1 ≤ codeUnits name && codeUnits name ≤ MAX_NAME

def polygonFits (polygon : List (R × R)) : Bool := 3 ≤ polygon.length && polygon.length ≤ MAX_VERTICES

def parseBody (name : Option String) (polygon : Option (List (R × R))) (color : Option String) :
    Except Denied Unit :=
  let fields := (if name.all nameFits then [] else ["name"]) ++
    (if polygon.all polygonFits then [] else ["polygon"]) ++
    if color.all isHexColor then [] else ["color"]
  if fields = [] then .ok () else .error (.validation fields)

end Validation

section Membership

variable {R : Type} (E : Env R)

def edgesOf (polygon : List (R × R)) : List ((R × R) × (R × R)) :=
  polygon.zip (polygon.getLast?.toList ++ polygon)

def intersects (point : R × R) (edge : (R × R) × (R × R)) : Bool :=
  let F := E.floats
  (F.lt point.1 edge.1.1 != F.lt point.1 edge.2.1) &&
    F.lt point.2 (F.add (F.div (F.mul (F.sub edge.2.2 edge.1.2) (F.sub point.1 edge.1.1))
      (F.add (F.sub edge.2.1 edge.1.1) F.epsilon)) edge.1.2)

def pointInPolygon (point : R × R) (polygon : List (R × R)) : Bool :=
  if polygon.length < 3 then false
  else (edgesOf polygon).foldl (fun inside edge => if intersects E point edge then !inside else inside) false

def isEnclosed (region : MapRegion R) (a : Asset R) : Bool :=
  a.assetType = "firewall" &&
    match a.latitude, a.longitude with
    | some lat, some lng => pointInPolygon E (lat, lng) region.polygon
    | _, _ => false

/-- The firewalls inside the polygon and the switches and access points that
they control. -/
def computeMembership (region : MapRegion R) (assets : List (Asset R)) : List String :=
  let enclosedFirewalls := assets.filter (isEnclosed E region)
  let enclosedHostnames := (enclosedFirewalls.map fun f => trim (f.hostname.getD "")).filter (· ≠ "")
  let infra := assets.filter fun a => (a.assetType = "switch" || a.assetType = "access_point") &&
    trim (a.controllerFortigate.getD "") ≠ "" && trim (a.controllerFortigate.getD "") ∈ enclosedHostnames
  enclosedFirewalls.map (·.id) ++ infra.map (·.id)

def regionTag (name : String) : String := "region:" ++ name

def addTagToAssets (assetIds : List String) (tag : String) (assets : List (Asset R)) : List (Asset R) :=
  assets.map fun a => if a.id ∈ assetIds ∧ tag ∉ a.tags then { a with tags := a.tags ++ [tag] } else a

def removeTagFromAllAssets (tag : String) (assets : List (Asset R)) : List (Asset R) :=
  assets.map fun a => { a with tags := a.tags.filter (· ≠ tag) }

end Membership

section Service

variable {R : Type} (E : Env R) (s : State R)

def upsertTagRegistry (name : String) (registry : List Tag) : List Tag :=
  if registry.any (·.name = regionTag name) then registry
  else registry ++ [⟨regionTag name, "Map Regions", E.palette name⟩]

def deleteTagRegistry (name : String) (registry : List Tag) : List Tag :=
  registry.filter (·.name ≠ regionTag name)

/-- A region without a colour of its own is given one as it is read. -/
def backfillColor (r : MapRegion R) : MapRegion R :=
  { r with color := some (match r.color.filter isHexColor with
    | some color => E.toLowerCase color
    | none => E.palette r.id) }

def loadAll : List (MapRegion R) := s.regions.map (backfillColor E)

def sameName (a b : String) : Bool := E.toLowerCase a = E.toLowerCase b

def takenMessage (name : String) : String := "A region named \"" ++ name ++ "\" already exists"

def createRegion (body : CreateBody R) (id now : String) (actor : Option String) :
    Except Denied (MapRegion R × State R) := do
  let name ← validateName body.name
  let polygon ← validatePolygon E body.polygon
  let color ← body.color.elim (.ok (E.palette id)) (validateColor E)
  if (loadAll E s).any fun r => sameName E r.name name then .error (.app 409 (takenMessage name))
  else
    let created : MapRegion R := ⟨id, name, polygon, some color, actor, now, now⟩
    .ok (created, { s with
      regions := loadAll E s ++ [created], registry := upsertTagRegistry E name s.registry })

/-- The region as it was, the region as it is, and whether it counts as
renamed. -/
structure Updated (R : Type) where
  previousName : String
  region : MapRegion R
  renamed : Bool
  state : State R

def updateRegion (id : String) (body : UpdateBody R) (now : String) : Except Denied (Updated R) :=
  match (loadAll E s).findIdx? (·.id = id) with
  | none => .error (.app 404 ("Region " ++ id ++ " not found"))
  | some idx =>
    match (loadAll E s)[idx]? with
    | none => .error (.app 404 ("Region " ++ id ++ " not found"))
    | some existing => do
      let name ← body.name.elim (.ok existing.name) validateName
      let polygon ← body.polygon.elim (.ok existing.polygon) (validatePolygon E)
      let color ← body.color.elim (.ok existing.color) fun color => (validateColor E color).map some
      let renamed := !sameName E name existing.name
      if renamed && ((loadAll E s).eraseIdx idx).any fun r => sameName E r.name name then
        .error (.app 409 (takenMessage name))
      else
        let updated : MapRegion R := { existing with
          name := name, polygon := polygon, color := color, updatedAt := now }
        .ok {
          previousName := existing.name
          region := updated
          renamed := renamed
          state :=
            { s with
              regions := (loadAll E s).set idx updated
              registry :=
                if renamed then upsertTagRegistry E name (deleteTagRegistry existing.name s.registry)
                  else s.registry } }

def deleteRegion (id : String) : Except Denied (MapRegion R × State R) :=
  match (loadAll E s).findIdx? (·.id = id) with
  | none => .error (.app 404 ("Region " ++ id ++ " not found"))
  | some idx =>
    match (loadAll E s)[idx]? with
    | none => .error (.app 404 ("Region " ++ id ++ " not found"))
    | some removed =>
      .ok (removed,
        { s with regions := (loadAll E s).eraseIdx idx, registry := deleteTagRegistry removed.name s.registry })

def applyOneRegion (region : MapRegion R) : State R :=
  { s with assets := addTagToAssets (computeMembership E region s.assets) (regionTag region.name) s.assets }

def applyRename (region : MapRegion R) (previousName : String) : State R :=
  applyOneRegion E { s with assets := removeTagFromAllAssets (regionTag previousName) s.assets } region

def applyDelete (region : MapRegion R) : State R :=
  { s with assets := removeTagFromAllAssets (regionTag region.name) s.assets }

def listRegions : List (MapRegion R) := (loadAll E s).insertionSort fun a b => E.localeLe a.name b.name

def reconcileMapRegions : State R := (listRegions E s).foldl (applyOneRegion E) s

end Service

section Routes

variable {R : Type} (E : Env R) (s : State R)

def postRegion (body : CreateBody R) (id now : String) (actor : Option String) :
    Except Denied (MapRegion R × State R) := do
  parseBody (some body.name) (some body.polygon) body.color
  let (created, s) ← createRegion E s body id now actor
  return (created, applyOneRegion E s created)

def putRegion (id : String) (body : UpdateBody R) (now : String) : Except Denied (MapRegion R × State R) := do
  parseBody body.name body.polygon body.color
  let result ← updateRegion E s id body now
  return (result.region,
    if result.renamed then applyRename E result.state result.region result.previousName
    else applyOneRegion E result.state result.region)

def deleteRegionRoute (id : String) : Except Denied (State R) := do
  let (removed, s) ← deleteRegion E s id
  return applyDelete s removed

/-- Requests, runs of the reconciler, and whatever else becomes of the
assets. -/
inductive Event (R : Type)
  | post (body : CreateBody R) (id now : String) (actor : Option String)
  | put (id : String) (body : UpdateBody R) (now : String)
  | delete (id : String)
  | reconcile
  | change (assets : List (Asset R))

def saved : Event R → Option (MapRegion R)
  | .post body id now actor => (postRegion E s body id now actor).toOption.map Prod.fst
  | .put id body now => (putRegion E s id body now).toOption.map Prod.fst
  | _ => none

def step : Event R → State R
  | .post body id now actor => (postRegion E s body id now actor).toOption.elim s Prod.snd
  | .put id body now => (putRegion E s id body now).toOption.elim s Prod.snd
  | .delete id => (deleteRegionRoute E s id).toOption.getD s
  | .reconcile => reconcileMapRegions E s
  | .change assets => { s with assets := assets }

end Routes

end Polaris.MapRegions
