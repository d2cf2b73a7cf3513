import SimCampaign.Chart.Figure
import SimCampaign.Storage.Path
import SimCampaign.Text.Utf8

/-! Trees of files as values: what is at each location, what a path leads to, and the changes that
a file system makes, which may fail half way. -/

namespace SimCampaign

/-- What a file holds: bytes, a chart description, or a page that shows a chart. -/
inductive Document where
  | bytes (data : ByteArray)
  | figure (f : Chart.Figure)
  | page (f : Chart.Figure)

namespace Document

def text (s : String) : Document := .bytes (Text.encode s)

def data : Document → ByteArray
  | .bytes data => data
  | .figure f => Text.encode f.toJson.render
  | .page f => Text.encode f.toPage

end Document

inductive IoError where
  | notFound
  | notFolder
  | isFolder
  | alreadyExists
  | denied
  | invalidData
  | invalidInput
  /-- Any other failure, as the operating system tells it. -/
  | system (text : String)
  deriving DecidableEq, Repr

def IoError.message : IoError → String
  | .notFound => "No such file or directory (os error 2)"
  | .notFolder => "Not a directory (os error 20)"
  | .isFolder => "Is a directory (os error 21)"
  | .alreadyExists => "File exists (os error 17)"
  | .denied => "Permission denied (os error 13)"
  | .invalidData => "stream did not contain valid UTF-8"
  | .invalidInput => "nul byte found in provided data"
  | .system text => text

inductive Node where
  | folder
  | file (doc : Document)

def Node.isFile : Node → Bool
  | .folder => false
  | .file _ => true

section Nodes
variable {nodes : List (Location × Node)} {p q : Location} {n : Node}

/-- The working folder is always there. -/
def nodeAt (nodes : List (Location × Node)) (p : Location) : Option Node :=
  if p = [] then some .folder else nodes.lookup p

def replaceNodes (p : Location) (n : Node) (nodes : List (Location × Node)) :
    List (Location × Node) :=
  nodes.map fun entry => if entry.1 = p then (p, n) else entry

/-- Every node stands in a folder. -/
def Closed (nodes : List (Location × Node)) : Prop :=
  ∀ entry ∈ nodes, nodeAt nodes entry.1.dropLast = some .folder

theorem map_fst_replaceNodes (p : Location) (n : Node) (nodes : List (Location × Node)) :
    (replaceNodes p n nodes).map Prod.fst = nodes.map Prod.fst := by
  induction nodes with
  | nil => rfl
  | cons entry nodes ih =>
    by_cases h : entry.1 = p
    · simpa [replaceNodes, h] using ih
    · simpa [replaceNodes, h] using ih

theorem lookup_replaceNodes_of_ne (h : q ≠ p) :
    (replaceNodes p n nodes).lookup q = nodes.lookup q := by
  induction nodes with
  | nil => rfl
  | cons entry nodes ih =>
    obtain ⟨r, m⟩ := entry
    have ih : (nodes.map fun e => if e.1 = p then (p, n) else e).lookup q = nodes.lookup q := ih
    by_cases he : r = p
    · subst he
      have hb : (q == r) = false := beq_eq_false_iff_ne.2 h
      simp [replaceNodes, List.lookup_cons, hb, ih]
    · simp [replaceNodes, List.lookup_cons, he, ih]

theorem nodeAt_replaceNodes_of_ne (h : q ≠ p) :
    nodeAt (replaceNodes p n nodes) q = nodeAt nodes q := by
  rw [nodeAt, nodeAt, lookup_replaceNodes_of_ne h]

theorem nodeAt_append_of_ne (h : q ≠ p) : nodeAt (nodes ++ [(p, n)]) q = nodeAt nodes q := by
  have hb : (q == p) = false := beq_eq_false_iff_ne.2 h
  simp [nodeAt, List.lookup_append, List.lookup_cons, hb]

theorem nodup_append_node (n : Node) (hd : (nodes.map Prod.fst).Nodup)
    (h : p ∉ nodes.map Prod.fst) : ((nodes ++ [(p, n)]).map Prod.fst).Nodup := by
  rw [List.map_append, List.nodup_append]
  refine ⟨hd, by simp, ?_⟩
  intro x hx y hy he
  have hy : y = p := by simpa using hy
  exact h (hy ▸ he ▸ hx)

theorem Closed.replaceNodes (hc : Closed nodes) (hp : nodeAt nodes p ≠ some .folder) :
    Closed (replaceNodes p n nodes) := by
  intro entry he
  have hparent : nodeAt nodes entry.1.dropLast = some .folder := by
    obtain ⟨old, hold, rfl⟩ := List.mem_map.1 he
    split
    next h => exact h ▸ hc old hold
    next h => exact hc old hold
  have hne : entry.1.dropLast ≠ p := fun h => hp (h ▸ hparent)
  rwa [nodeAt_replaceNodes_of_ne hne]

theorem Closed.append_node (hc : Closed nodes) (hp : nodeAt nodes p ≠ some .folder)
    (hparent : nodeAt nodes p.dropLast = some .folder) : Closed (nodes ++ [(p, n)]) := by
  intro entry he
  have hfolder : nodeAt nodes entry.1.dropLast = some .folder := by
    rcases List.mem_append.1 he with he | he
    · exact hc entry he
    · rw [List.mem_singleton.1 he]
      exact hparent
  have hne : entry.1.dropLast ≠ p := fun h => hp (h ▸ hfolder)
  rwa [nodeAt_append_of_ne hne]

theorem lookup_filter_of_keep {keep : Location × Node → Bool} (h : nodes.lookup p = some n)
    (hk : keep (p, n) = true) : (nodes.filter keep).lookup p = some n := by
  induction nodes with
  | nil => cases h
  | cons entry nodes ih =>
    obtain ⟨q, m⟩ := entry
    by_cases hq : p = q
    · subst hq
      rw [List.lookup_cons, beq_self_eq_true] at h
      obtain rfl := Option.some.inj h
      simp [hk]
    · have hb : (p == q) = false := beq_eq_false_iff_ne.2 hq
      rw [List.lookup_cons, hb] at h
      rw [List.filter_cons]
      split
      · rw [List.lookup_cons, hb]
        exact ih h
      · exact ih h

end Nodes

structure FileTree where
  nodes : List (Location × Node)
  /-- One node stands at a location. -/
  nodup : (nodes.map Prod.fst).Nodup
  closed : Closed nodes

namespace FileTree

def empty : FileTree := ⟨[], List.nodup_nil, fun _ h => absurd h List.not_mem_nil⟩

instance : Inhabited FileTree := ⟨empty⟩

def node? (t : FileTree) (p : Location) : Option Node := nodeAt t.nodes p

def exists? (t : FileTree) (p : Location) : Bool := (t.node? p).isSome

def isFile (t : FileTree) (p : Location) : Bool :=
  match t.node? p with
  | some n => n.isFile
  | none => false

def isFolder (t : FileTree) (p : Location) : Bool :=
  match t.node? p with
  | some n => !n.isFile
  | none => false

theorem isFolder_iff {t : FileTree} {p : Location} :
    t.isFolder p = true ↔ t.node? p = some .folder := by
  unfold isFolder
  cases t.node? p with
  | none => simp
  | some n => cases n <;> simp [Node.isFile]

section Changes

/-- Whether a location is in a folder, and not one itself. -/
structure HasRoom (t : FileTree) (p : Location) : Prop where
  parent : t.isFolder p.dropLast = true
  notFolder : ¬ t.isFolder p = true

instance (t : FileTree) (p : Location) : Decidable (t.HasRoom p) :=
  decidable_of_iff (t.isFolder p.dropLast = true ∧ ¬ t.isFolder p = true)
    ⟨fun h => ⟨h.1, h.2⟩, fun h => ⟨h.1, h.2⟩⟩

theorem HasRoom.node?_ne {t : FileTree} {p : Location} (h : t.HasRoom p) :
    nodeAt t.nodes p ≠ some .folder := fun hp => h.notFolder (isFolder_iff.2 hp)

/-- Puts a node at a location where there is room, in place of the file that may be there. -/
def place (t : FileTree) (p : Location) (n : Node) : FileTree :=
  if hr : t.HasRoom p then
    if h : p ∈ t.nodes.map Prod.fst then
      ⟨replaceNodes p n t.nodes, by rw [map_fst_replaceNodes]; exact t.nodup,
        t.closed.replaceNodes hr.node?_ne⟩
    else
      ⟨t.nodes ++ [(p, n)], nodup_append_node n t.nodup h,
        t.closed.append_node hr.node?_ne (isFolder_iff.1 hr.parent)⟩
  else t

def write (t : FileTree) (p : Location) (doc : Document) : FileTree := t.place p (.file doc)

def writeText (t : FileTree) (p : Location) (s : String) : FileTree := t.write p (.text s)

def addFolder (t : FileTree) (p : Location) : FileTree :=
  if t.exists? p then t else t.place p .folder

section Removal
variable (t : FileTree) (p : Location) (reached : Location → Bool)

/-- Whether a location is not removed with `p`: it is not below it, or holds what was not
reached. -/
def stays (q : Location) : Bool :=
  !p.isPrefixOf q || t.nodes.any fun other => q.isPrefixOf other.1 && !reached other.1

variable {t p reached} in
theorem stays_of_prefix {q r : Location} (hr : t.stays p reached r = true) (h : q <+: r) :
    t.stays p reached q = true := by
  rw [stays, Bool.or_eq_true] at hr ⊢
  rcases hr with hr | hr
  · refine .inl ?_
    rw [Bool.not_eq_true', Bool.eq_false_iff, ne_eq, List.isPrefixOf_iff_prefix] at hr ⊢
    exact fun hp => hr (hp.trans h)
  · refine .inr ?_
    obtain ⟨other, ho, hb⟩ := List.any_eq_true.1 hr
    rw [Bool.and_eq_true, List.isPrefixOf_iff_prefix] at hb
    refine List.any_eq_true.2 ⟨other, ho, ?_⟩
    rw [Bool.and_eq_true, List.isPrefixOf_iff_prefix]
    exact ⟨h.trans hb.1, hb.2⟩

theorem closed_filter_stays :
    Closed (t.nodes.filter fun entry => t.stays p reached entry.1) := by
  intro entry he
  obtain ⟨he, hs⟩ := List.mem_filter.1 he
  have hc := t.closed entry he
  have hs : t.stays p reached entry.1.dropLast = true :=
    stays_of_prefix hs (List.dropLast_prefix entry.1)
  rw [nodeAt] at hc ⊢
  split
  next => rfl
  next hn =>
    rw [if_neg hn] at hc
    exact lookup_filter_of_keep hc hs

/-- Removes what was reached of a location and all below it. A folder stays as long as something in
it does. -/
def removePart : FileTree where
  nodes := t.nodes.filter fun entry => t.stays p reached entry.1
  nodup := t.nodup.sublist (List.filter_sublist.map Prod.fst)
  closed := t.closed_filter_stays p reached

def remove : FileTree := t.removePart p fun _ => true

end Removal

end Changes

section Paths

/-- Passes through folders, as far as they are there. -/
def enter (t : FileTree) : List Location → Except IoError Unit
  | [] => .ok ()
  | q :: qs =>
    match t.node? q with
    | some .folder => t.enter qs
    | some (.file _) => .error .notFolder
    | none => .error .notFound

/-- What a path leads to. The folders on its way must be there, even those that it leaves again. -/
def find (t : FileTree) (path : String) : Except IoError Node := do
  if path = "" then throw .notFound
  t.enter (Path.way path).dropLast
  match t.node? (Path.resolve path) with
  | some n => .ok n
  | none => .error .notFound

def finds (t : FileTree) (path : String) : Bool := (t.find path).isOk

def documentText : Document → Except IoError String
  | .bytes data =>
    match Text.decode? data with
    | some s => .ok s
    | none => .error .invalidData
  | .figure f => .ok f.toJson.render
  | .page f => .ok f.toPage

def readText (t : FileTree) (path : String) : Except IoError String := do
  match ← t.find path with
  | .file doc => documentText doc
  | .folder => .error .isFolder

def children (t : FileTree) (p : Location) : List (String × Node) :=
  t.nodes.filterMap fun (q, n) =>
    match q.getLast? with
    | some name => if q = p ++ [name] then some (name, n) else none
    | none => none

end Paths

end FileTree

/-- What befalls an operation that could be done: its cause, where it had an effect, and how much it
wrote. -/
structure Fault where
  cause : IoError
  reached : Location → Bool
  length : Nat

/-- An operation of the file system, which a fault may stop. What was done before stays. -/
abbrev Change := Option Fault → FileTree → Except IoError Unit × FileTree

namespace FileTree

section MakeFolders

/-- Makes the folders of a way that are not there. It ends at a file, and at the first folder that is
not reached. -/
def makeAlong (reached : Location → Bool) (made : Bool) (t : FileTree) :
    List Location → Except IoError Unit × FileTree
  | [] => (.ok (), t)
  | q :: qs =>
    match t.node? q with
    | some .folder => makeAlong reached made t qs
    | some (.file _) => (.error (if made || qs.isEmpty then .alreadyExists else .notFolder), t)
    | none => if reached q then makeAlong reached true (t.addFolder q) qs else (.ok (), t)

def makeFolders (path : String) : Change := fun fault? t =>
  match fault? with
  | none => makeAlong (fun _ => true) false t (Path.way path)
  | some f => (.error f.cause, (makeAlong f.reached false t (Path.way path)).2)

end MakeFolders

section Write

/-- Writes a file whose folder is known. It is made, or emptied, before anything is written. -/
def writeAt (p : Location) (doc : Document) : Change := fun fault? t =>
  if t.isFolder p then (.error .isFolder, t)
  else match fault? with
    | none => (.ok (), t.write p doc)
    | some f =>
      (.error f.cause,
        if f.reached p then t.write p (.bytes (doc.data.extract 0 f.length)) else t)

def writeFile (path : String) (doc : Document) : Change := fun fault? t =>
  match t.enter (Path.way path).dropLast with
  | .ok () => writeAt (Path.resolve path) doc fault? t
  | .error e => (.error e, t)

end Write

section RemoveFolder

/-- Why a folder is not removed by a path that does not end in its name. -/
def unremovable? (path : String) : Option IoError :=
  match ((Path.pieces path).filter (· != "")).getLast? with
  | none => some (.system "Device or resource busy (os error 16)")
  | some "." => some (.system "Invalid argument (os error 22)")
  | some ".." => some (.system "Directory not empty (os error 39)")
  | some _ => none

/-- Removes a folder with all below it. The folder itself goes last, by its path. -/
def removeFolder (path : String) : Change := fun fault? t =>
  match t.find path with
  | .error e => (.error e, t)
  | .ok (.file _) => (.error .notFolder, t)
  | .ok .folder =>
    let p := Path.resolve path
    match fault? with
    | some f => (.error f.cause, t.removePart p f.reached)
    | none =>
      let emptied := t.removePart p fun q => q != p
      match unremovable? path, emptied.find path with
      | some e, _ => (.error e, emptied)
      | none, .error e => (.error e, emptied)
      | none, .ok _ => (.ok (), t.remove p)

end RemoveFolder

end FileTree
end SimCampaign
