import Mathlib.Data.List.Induction
import QuinMo.Lib.Crash

/-!
# Extraction of packaged assets

At every start the core extracts an asset anew if needed, and may be killed at any point. The
version file is written last, so that a version found there speaks for the destination.
-/

namespace QuinMo.Libcore.Assets

open Crash

abbrev Text := List Char

def value (text : Text) : Nat := text.foldl (fun n c => 10 * n + (c.toNat - 48)) 0

/-- `strconv.ParseUint` for base 10 and 64 bits. -/
def parseUint (text : Text) : Option Nat :=
  if text ≠ [] ∧ text.all Char.isDigit = true ∧ value text < 18446744073709551616 then
    some (value text)
  else none

inductive Asset where
  | geoip
  | geosite
  | yacd
  deriving DecidableEq, Repr

def Asset.name : Asset → String
  | .geoip => "geoip.db"
  | .geosite => "geosite.db"
  | .yacd => "yacd"

/-- Assets that may also come from another source. -/
def Asset.replaceable : Asset → Bool
  | .yacd => false
  | _ => true

abbrev Bytes := List UInt8

/-- What a package holds. The dashboard is in a zip archive, the databases are compressed. -/
structure Package where
  version : Text
  geoip : Option Bytes
  geosite : Option Bytes
  yacdZip : Option Bytes
  deriving DecidableEq, Repr

def Package.openXz (package : Package) : Asset → Option Bytes
  | .geoip => package.geoip
  | .geosite => package.geosite
  | .yacd => none

/-- An entry of a zip archive, by the directory `Yacd-…` it lies in; a directory has no content.
The name of an entry may also lead out of the destination. -/
inductive Entry where
  | outside (name : String)
  | inside (top : String) (path : List String) (content : Option Bytes)
  deriving DecidableEq, Repr

structure Codecs where
  unxz : Bytes → Option Bytes
  readZip : Bytes → Option (List Entry)

/-- The files and directories below a directory, the directory itself among them. -/
abbrev Dir := List (List String × Option Bytes)

/-- The directories `Yacd-…` by name. -/
abbrev Tops := List (String × Dir)

inductive Node where
  | file (content : Bytes)
  | dir (entries : Dir)
  deriving DecidableEq, Repr

structure Disk where
  dst : Option Node
  version : Option Text
  /-- The archive as copied from the package. -/
  archive : Option Bytes
  tmp : Option Bytes
  unpacked : Tops
  deriving DecidableEq, Repr

def Disk.empty : Disk := ⟨none, none, none, none, []⟩

def Dir.put (dir : Dir) (path : List String) (content : Option Bytes) : Dir :=
  if (dir.lookup path).isSome then
    dir.map fun entry => if entry.1 = path then (path, content) else entry
  else dir ++ [(path, content)]

/-- `os.MkdirAll` with the directories on the way. -/
def Dir.mkdirs : List (List String) → Dir → Except String Dir
  | [], dir => .ok dir
  | path :: paths, dir =>
    match dir.lookup path with
    | some (some _) => .error "not a directory"
    | some none => Dir.mkdirs paths dir
    | none => Dir.mkdirs paths (dir.put path none)

def Dir.create (path : List String) (dir : Dir) : Except String Dir :=
  if path ≠ [] ∧ dir.lookup path.dropLast ≠ some none then .error "no such file or directory"
  else if dir.lookup path = some none then .error "is a directory"
  else .ok (dir.put path (some []))

/-- Change the directory of this name, which is made if it is missing. -/
def Tops.change (tops : Tops) (top : String) (f : Dir → Except String Dir) : Except String Tops :=
  match tops.lookup top with
  | some dir => do
    let dir ← f dir
    return tops.map fun entry => if entry.1 = top then (top, dir) else entry
  | none => do
    let dir ← f []
    return tops ++ [(top, dir)]

def Tops.mkdirAll (tops : Tops) (top : String) (path : List String) : Except String Tops :=
  tops.change top (Dir.mkdirs path.inits)

def Tops.create (tops : Tops) (top : String) (path : List String) : Except String Tops :=
  tops.change top (Dir.create path)

def Tops.write (tops : Tops) (top : String) (path : List String) (content : Bytes) : Tops :=
  tops.map fun entry =>
    if entry.1 = top then (top, Dir.put entry.2 path (some content)) else entry

/-- What a removal leaves that was broken off. -/
def remains {α : Type} (part : Part) (entries : List α) : List α :=
  ((entries.zip part.kept).filter (·.2)).map (·.1)

def Node.remains (part : Part) : Node → Node
  | .file content => .file content
  | .dir entries => .dir (Assets.remains part entries)

def createArchive : Program Disk Unit :=
  .step (fun _ d => d) fun d => .ok { d with archive := some [] }

def writeArchive (bytes : Bytes) : Program Disk Unit :=
  .step (fun part d => { d with archive := some (bytes.take part.length) })
    fun d => .ok { d with archive := some bytes }

def removeArchive : Program Disk Unit := .remove (fun _ d => d) fun d => { d with archive := none }

def createTmp : Program Disk Unit := .step (fun _ d => d) fun d => .ok { d with tmp := some [] }

def writeTmp (content : Bytes) : Program Disk Unit :=
  .step (fun part d => { d with tmp := some (content.take part.length) })
    fun d => .ok { d with tmp := some content }

def removeTmp : Program Disk Unit := .remove (fun _ d => d) fun d => { d with tmp := none }

/-- The rename is atomic; it does not replace a directory. -/
def renameTmp : Program Disk Unit :=
  .step (fun _ d => d) fun d =>
    match d.tmp, d.dst with
    | none, _ => .error "no such file or directory"
    | some _, some (.dir _) => .error "file exists"
    | some content, _ => .ok { d with tmp := none, dst := some (.file content) }

def removeDst : Program Disk Unit :=
  .remove (fun part d => { d with dst := d.dst.map (Node.remains part) })
    fun d => { d with dst := none }

def mkdirAll (top : String) (path : List String) : Program Disk Unit :=
  .step
    (fun part d =>
      match d.unpacked.mkdirAll top (path.take part.length) with
      | .ok unpacked => { d with unpacked }
      | .error _ => d)
    fun d => do
      let unpacked ← d.unpacked.mkdirAll top path
      return { d with unpacked }

def createFile (top : String) (path : List String) : Program Disk Unit :=
  .step (fun _ d => d) fun d => do
    let unpacked ← d.unpacked.create top path
    return { d with unpacked }

def writeFile (top : String) (path : List String) (content : Bytes) : Program Disk Unit :=
  .step
    (fun part d => { d with unpacked := d.unpacked.write top path (content.take part.length) })
    fun d => .ok { d with unpacked := d.unpacked.write top path content }

def removeTop (top : String) : Program Disk Unit :=
  .remove
    (fun part d => { d with unpacked := d.unpacked.map fun entry =>
      if entry.1 = top then (top, remains part entry.2) else entry })
    fun d => { d with unpacked := d.unpacked.filter (·.1 ≠ top) }

def removeTops : List String → Program Disk Unit
  | [] => pure ()
  | top :: tops => do
    removeTop top
    removeTops tops

def globTops : Program Disk (List String) := .read fun d => d.unpacked.map (·.1)

def renameTop (top : String) : Program Disk Unit :=
  .step (fun _ d => d) fun d =>
    match d.unpacked.lookup top, d.dst with
    | none, _ => .error "no such file or directory"
    | some _, some _ => .error "file exists"
    | some dir, none =>
      .ok { d with unpacked := d.unpacked.filter (·.1 ≠ top), dst := some (.dir dir) }

def extractAsset (bytes : Bytes) : Program Disk Unit := do
  createArchive
  writeArchive bytes

def unxz (codecs : Codecs) : Program Disk Unit := do
  match ← .read (·.archive) with
  | none => .throw "no such file or directory"
  | some bytes =>
    createTmp
    match codecs.unxz bytes with
    | none => .throw "xz: data is corrupt"
    | some content => writeTmp content

def unzipEntries : List Entry → Program Disk Unit
  | [] => pure ()
  | .outside name :: _ => .throw ("zip entry " ++ name ++ " escapes destination")
  | .inside top path none :: entries => do
    mkdirAll top path
    unzipEntries entries
  | .inside top path (some content) :: entries => do
    createFile top path
    writeFile top path content
    unzipEntries entries

def unzip (codecs : Codecs) : Program Disk Unit := do
  match ← .read (·.archive) with
  | none => .throw "no such file or directory"
  | some bytes =>
    match codecs.readZip bytes with
    | none => .throw "zip: not a valid zip file"
    | some entries => unzipEntries entries

/-- The part of `extractXz` in which an error is kept. -/
def replaceByXz (codecs : Codecs) (bytes : Bytes) : Program Disk Unit := do
  extractAsset bytes
  let result ← .attempt (unxz codecs)
  removeArchive
  .raise result
  renameTmp

def extractXz (codecs : Codecs) (bytes : Bytes) : Program Disk Unit := do
  match ← .attempt (replaceByXz codecs bytes) with
  | .ok _ => pure ()
  | .error e =>
    removeTmp
    .throw ("extract xz: " ++ e)

def extractZip (codecs : Codecs) (bytes : Bytes) : Program Disk Unit :=
  .context "extract zip: " do
    extractAsset bytes
    let result ← .attempt (unzip codecs)
    removeArchive
    .raise result

/-- The part for the dashboard after its archive was unpacked. -/
def placeYacd : Program Disk Unit := do
  match ← globTops with
  | [top] => .context "rename Yacd: " (renameTop top)
  | found =>
    removeTops found
    .throw ("glob Yacd found " ++ toString found.length ++ " result, expect 1")

def extractYacd (codecs : Codecs) (bytes : Bytes) : Program Disk Unit := do
  removeDst
  let leftovers ← globTops
  removeTops leftovers
  extractZip codecs bytes
  placeYacd

def writeVersion (version : Text) : Program Disk Unit := do
  .context "create version: " (.step (fun _ d => d) fun d => .ok { d with version := some [] })
  .step (fun part d => { d with version := some (version.take part.length) })
    fun d => .ok { d with version := some version }

def extractArchive (codecs : Codecs) (asset : Asset) (package : Package) : Program Disk Unit :=
  match package.openXz asset, package.yacdZip with
  | some bytes, _ => extractXz codecs bytes
  | none, some bytes =>
    if asset = .yacd then extractYacd codecs bytes
    else .throw ("no asset found for " ++ asset.name)
  | none, none => .throw ("no asset found for " ++ asset.name)

def extract (codecs : Codecs) (asset : Asset) (package : Package) : Program Disk Unit := do
  extractArchive codecs asset package
  writeVersion package.version

/-- Whether the packaged version is to replace the one of the version file. -/
def upgrades (assetVersion localVersion : Text) : Bool :=
  if localVersion = "Custom".toList then false
  else
    match parseUint assetVersion with
    | none => assetVersion != localVersion
    | some av =>
      match parseUint localVersion with
      | none => true
      | some lv => decide (av > lv)

/-- What the function finds before it extracts anything. -/
inductive Finding where
  | assetMissing
  | versionMissing
  | version (doExtract : Bool)
  | notUpgraded
  deriving DecidableEq, Repr

def find (asset : Asset) (useOfficialAssets : Bool) (assetVersion : Text) (d : Disk) : Finding :=
  if d.dst.isNone then .assetMissing
  else if useOfficialAssets || !asset.replaceable then
    match d.version with
    | none => .versionMissing
    | some localVersion => .version (upgrades assetVersion localVersion)
  else .notUpgraded

def extractAssetName (codecs : Codecs) (asset : Asset) (useOfficialAssets : Bool)
    (package : Package) : Program Disk Unit := do
  match ← .read (find asset useOfficialAssets package.version) with
  | .assetMissing => extract codecs asset package
  | .versionMissing =>
    removeDst
    extract codecs asset package
  | .version true => extract codecs asset package
  | .version false => pure ()
  | .notUpgraded => pure ()

/-! ## Complete extractions -/

def unpack : List Entry → Tops → Except String Tops
  | [], tops => .ok tops
  | .outside name :: _, _ => .error ("zip entry " ++ name ++ " escapes destination")
  | .inside top path none :: entries, tops => do
    let tops ← tops.mkdirAll top path
    unpack entries tops
  | .inside top path (some content) :: entries, tops => do
    let tops ← tops.create top path
    unpack entries (tops.write top path content)

/-- The one directory in an archive. -/
def zipContents (codecs : Codecs) (bytes : Bytes) : Option Node :=
  match codecs.readZip bytes with
  | none => none
  | some entries =>
    match unpack entries [] with
    | .ok [(_, dir)] => some (.dir dir)
    | _ => none

/-- What the asset of the package is when all of it was extracted. -/
def contents (codecs : Codecs) (asset : Asset) (package : Package) : Option Node :=
  match package.openXz asset, package.yacdZip with
  | some bytes, _ => (codecs.unxz bytes).map .file
  | none, some bytes => if asset = .yacd then zipContents codecs bytes else none
  | none, none => none

/-- The destination can be replaced by a rename. -/
def Disk.NoDir (d : Disk) : Prop := ∀ dir, d.dst ≠ some (.dir dir)

/-- The version file is this one, and the destination of a database is no directory. -/
def Disk.Kept (asset : Asset) (v : Option Text) (d : Disk) : Prop :=
  d.version = v ∧ (asset ≠ .yacd → d.NoDir)

/-- However the program ends, it leaves the version file alone and a file a file; from `pre`, it
comes to `post` if it succeeds. If nothing disturbs it, it fails only if it is `refused`. -/
def Leaves {α : Type} (calm : Prop) (asset : Asset) (pre : Disk → Prop) (x : Program Disk α)
    (post : α → Disk → Prop) (refused : Prop) : Prop :=
  ∀ v, Triple calm (fun d => d.Kept asset v ∧ pre d) x (fun a d => d.Kept asset v ∧ post a d)
    (fun d => d.Kept asset v ∧ (calm → refused))

/-- What is known after an attempt. -/
def Attempted {α : Type} (good : α → Prop) (bad : Prop) : Except String α → Prop
  | .ok a => good a
  | .error _ => bad

variable {partly : Part → Disk → Disk}

namespace Leaves

variable {α β : Type} {calm refused : Prop} {asset : Asset} {pre : Disk → Prop} {x : Program Disk α}

theorem bind {f : α → Program Disk β} {last : β → Disk → Prop} (post : α → Disk → Prop)
    (first : Leaves calm asset pre x post refused)
    (rest : ∀ a, Leaves calm asset (post a) (f a) last refused) :
    Leaves calm asset pre (x >>= f) last refused :=
  fun v => .bind _ (first v) fun a => rest a v

variable {post : α → Disk → Prop}

theorem weaken {refused' : Prop} {pre' : Disk → Prop} {post' : α → Disk → Prop}
    (h : Leaves calm asset pre x post refused) (before : ∀ d, pre' d → pre d)
    (after : ∀ a d, post a d → post' a d) (worse : refused → refused') :
    Leaves calm asset pre' x post' refused' :=
  fun v => (h v).weaken (fun d holds => ⟨holds.1, before d holds.2⟩)
    (fun a d holds => ⟨holds.1, after a d holds.2⟩)
    fun _ lost => ⟨lost.1, fun c => worse (lost.2 c)⟩

theorem of_not (h : ∀ d, ¬ pre d) : Leaves calm asset pre x post refused :=
  fun _ _ _ holds => absurd holds.2 (h _)

theorem pure {a : α} (h : ∀ d, pre d → post a d) :
    Leaves calm asset pre (Pure.pure a : Program Disk α) post refused :=
  fun _ => .pure fun d holds => ⟨holds.1, h d holds.2⟩

theorem throw {e : String} (why : ∀ d, pre d → calm → refused) :
    Leaves calm asset pre (Program.throw e : Program Disk α) post refused :=
  fun _ => .throw fun d holds => ⟨holds.1, why d holds.2⟩

theorem read {f : Disk → α} :
    Leaves calm asset pre (Program.read f) (fun a d => pre d ∧ a = f d) refused :=
  fun _ => (Triple.read fun loud _ holds => ⟨holds.1, fun c => absurd c loud⟩).weaken (fun _ => id)
    (fun _ _ h => ⟨h.1.1, h.1.2, h.2⟩) fun _ => id

/-- A read whose value is known. -/
theorem bind_read {f : Disk → α} {g : α → Program Disk β} {last : β → Disk → Prop} (a : α)
    (known : ∀ d, pre d → f d = a) (rest : Leaves calm asset pre (g a) last refused) :
    Leaves calm asset pre (Program.read f >>= g) last refused :=
  fun v => .bind_read a (fun d holds => known d holds.2)
    (fun loud _ holds => ⟨holds.1, fun c => absurd c loud⟩) (rest v)

theorem step {full : Disk → Except String Disk} {post : Unit → Disk → Prop}
    (broken : ∀ part d v, d.Kept asset v → (partly part d).Kept asset v)
    (fails : ∀ d e v, d.Kept asset v → pre d → full d = .error e → refused)
    (after : ∀ d d', pre d → full d = .ok d' →
      (∀ v, d.Kept asset v → d'.Kept asset v) ∧ post () d') :
    Leaves calm asset pre (Program.step partly full) post refused := by
  refine fun v => .step (fun loud d holds => ⟨holds.1, fun c => absurd c loud⟩)
    (fun loud part d holds => ⟨broken part d v holds.1, fun c => absurd c loud⟩)
    (fun d e holds out => ⟨holds.1, fun _ => fails d e v holds.1 holds.2 out⟩)
    fun d d' holds out => ?_
  obtain ⟨kept, h⟩ := after d d' holds.2 out
  exact ⟨kept v holds.1, h⟩

/-- A step that does not fail by itself. -/
theorem write {f : Disk → Disk} {post : Unit → Disk → Prop}
    (broken : ∀ part d v, d.Kept asset v → (partly part d).Kept asset v)
    (after : ∀ d, pre d → (∀ v, d.Kept asset v → (f d).Kept asset v) ∧ post () (f d)) :
    Leaves calm asset pre (Program.step partly fun d => .ok (f d)) post refused := by
  refine .step broken (fun d e v _ _ out => ?_) fun d d' holds out => ?_
  · cases out
  · cases out
    exact after d holds

theorem remove {full : Disk → Disk} {post : Unit → Disk → Prop}
    (broken : ∀ part d v, d.Kept asset v → (partly part d).Kept asset v)
    (after : ∀ d, pre d → (∀ v, d.Kept asset v → (full d).Kept asset v) ∧ post () (full d)) :
    Leaves calm asset pre (Program.remove partly full) post refused := by
  refine fun v => .remove (fun loud d holds => ⟨holds.1, fun c => absurd c loud⟩)
    (fun loud part d holds => ⟨broken part d v holds.1, fun c => absurd c loud⟩) fun d holds => ?_
  obtain ⟨kept, h⟩ := after d holds.2
  exact ⟨kept v holds.1, h⟩

theorem context {text : String} (h : Leaves calm asset pre x post refused) :
    Leaves calm asset pre (Program.context text x) post refused :=
  fun v => (h v).context

theorem attempt (h : Leaves calm asset pre x post refused) :
    Leaves calm asset pre (Program.attempt x)
      (fun r d => Attempted (post · d) (calm → refused) r) refused := by
  intro v
  refine ((h v).attempt fun loud _ _ holds => ⟨holds.1, fun c => absurd c loud⟩).weaken
    (fun _ => id) ?_ fun _ => id
  rintro (e | a) d holds
  · exact holds
  · exact holds

theorem raise {r : Except String α} : Leaves calm asset
    (fun d => Attempted (post · d) (calm → refused) r) (Program.raise r) post refused := by
  cases r with
  | ok a => exact .pure fun _ => id
  | error e => exact .throw fun _ => id

end Leaves

section Files

variable {codecs : Codecs} {asset : Asset} {calm refused : Prop}

theorem extractAsset_leaves (Q : Option Node → Tops → Prop) (bytes : Bytes) :
    Leaves calm asset (fun d => Q d.dst d.unpacked) (extractAsset bytes)
      (fun _ d => d.archive = some bytes ∧ Q d.dst d.unpacked) refused :=
  .bind (fun _ d => Q d.dst d.unpacked) (.write (fun _ _ _ => id) fun _ same => ⟨fun _ => id, same⟩)
    fun _ => .write (fun _ _ _ => id) fun _ same => ⟨fun _ => id, rfl, same⟩

theorem unxz_leaves (bytes : Bytes) :
    Leaves calm asset (fun d => d.archive = some bytes) (unxz codecs)
      (fun _ d => ∃ content, codecs.unxz bytes = some content ∧ d.tmp = some content)
      (codecs.unxz bytes = none) := by
  refine .bind_read (some bytes) (fun _ => id) ?_
  refine .bind (fun _ _ => True) (.write (fun _ _ _ => id) fun _ _ => ⟨fun _ => id, trivial⟩)
    fun _ => ?_
  cases out : codecs.unxz bytes with
  | none => exact .throw fun _ _ _ => rfl
  | some content => exact .write (fun _ _ _ => id) fun _ _ => ⟨fun _ => id, content, rfl, rfl⟩

theorem renameTmp_leaves (database : asset ≠ .yacd) (content : Bytes) :
    Leaves calm asset (fun d => d.tmp = some content) renameTmp
      (fun _ d => d.dst = some (.file content)) refused := by
  refine .step (fun _ _ _ => id) (fun d e v kept there out => ?_) fun d d' there out => ?_
  · rw [there] at out
    rcases dst : d.dst with _ | _ | dir
    · rw [dst] at out
      cases out
    · rw [dst] at out
      cases out
    · exact absurd dst (kept.2 database dir)
  · rw [there] at out
    split at out
    case h_1 none_ => cases none_
    case h_2 => cases out
    case h_3 found _ =>
      cases out
      cases found
      exact ⟨fun v kept => ⟨kept.1, fun _ _ => by simp⟩, rfl⟩

/-- The archive is removed whether or not it could be used. -/
theorem removeArchive_leaves {r : Except String Unit} {Q : Disk → Prop} {bad : Prop}
    (free : ∀ d, Q d → Q { d with archive := none }) :
    Leaves calm asset (fun d => Attempted (fun _ => Q d) bad r) removeArchive
      (fun _ d => Attempted (fun _ => Q d) bad r) refused := by
  refine .remove (fun _ _ _ => id) fun d holds => ⟨fun _ => id, ?_⟩
  cases r with
  | ok a => exact free d holds
  | error e => exact holds

theorem replaceByXz_leaves (database : asset ≠ .yacd) (bytes : Bytes) :
    Leaves calm asset (fun _ => True) (replaceByXz codecs bytes)
      (fun _ d => ∃ node, (codecs.unxz bytes).map .file = some node ∧ d.dst = some node)
      (codecs.unxz bytes = none) := by
  refine .bind _ (extractAsset_leaves (fun _ _ => True) bytes) fun _ => ?_
  refine .bind _ (.attempt ((unxz_leaves bytes).weaken (fun _ holds => holds.1) (fun _ _ => id) id))
    fun result => ?_
  refine .bind _ (removeArchive_leaves fun _ => id) fun _ => ?_
  refine .bind _ .raise fun _ => ?_
  cases out : codecs.unxz bytes with
  | none => exact .of_not fun d => by simp
  | some content =>
    refine (renameTmp_leaves database content).weaken ?_ (fun _ _ done => ⟨_, rfl, done⟩) id
    rintro d ⟨_, ⟨⟩, there⟩
    exact there

theorem extractXz_leaves (database : asset ≠ .yacd) (bytes : Bytes) :
    Leaves calm asset (fun _ => True) (extractXz codecs bytes)
      (fun _ d => ∃ node, (codecs.unxz bytes).map .file = some node ∧ d.dst = some node)
      (codecs.unxz bytes = none) := by
  refine .bind _ (replaceByXz_leaves database bytes).attempt fun result => ?_
  cases result with
  | ok a => exact .pure fun _ => id
  | error e =>
    refine .bind (fun _ _ => calm → codecs.unxz bytes = none) (.remove (fun _ _ _ => id) ?_)
      fun _ => .throw fun _ => id
    exact fun _ why => ⟨fun _ => id, why⟩

theorem removeTops_leaves (dst : Option Node) (tops : List String) :
    Leaves calm asset (fun d => d.dst = dst ∧ ∀ entry ∈ d.unpacked, entry.1 ∈ tops)
      (removeTops tops) (fun _ d => d.dst = dst ∧ d.unpacked = []) refused := by
  induction tops with
  | nil =>
    refine .pure fun d ⟨same, only⟩ => ⟨same, ?_⟩
    exact List.eq_nil_iff_forall_not_mem.mpr fun entry mem => nomatch only entry mem
  | cons top tops ih =>
    refine .bind _ (.remove (fun _ _ _ => id) ?_) fun _ => ih
    refine fun d ⟨same, only⟩ => ⟨fun _ => id, same, fun entry mem => ?_⟩
    obtain ⟨mem, other⟩ := List.mem_filter.mp mem
    exact (List.mem_cons.mp (only entry mem)).resolve_left (of_decide_eq_true other)

/-- A step that changes what was unpacked, and what follows it. -/
theorem bind_change (change : Tops → Except String Tops) {dst : Option Node} {tops : Tops}
    {y : Unit → Program Disk Unit} {last : Unit → Disk → Prop}
    (broken : ∀ part d v, d.Kept asset v → (partly part d).Kept asset v)
    (refuses : ∀ e, change tops = .error e → refused)
    (rest : ∀ tops', change tops = .ok tops' →
      Leaves calm asset (fun d => d.dst = dst ∧ d.unpacked = tops') (y ()) last refused) :
    Leaves calm asset (fun d => d.dst = dst ∧ d.unpacked = tops)
      (Program.step partly (fun d => do
        let unpacked ← change d.unpacked
        return { d with unpacked }) >>= y) last refused := by
  cases out : change tops with
  | error e =>
    refine .bind (fun _ _ => False) (.step broken (fun _ _ _ _ _ _ => refuses e out) ?_) fun _ =>
      .of_not fun _ => id
    intro d d' ⟨_, same⟩ run
    rw [same, out] at run
    cases run
  | ok tops' =>
    refine .bind _ (.step broken (fun d e v _ ⟨_, same⟩ run => ?_)
      fun d d' ⟨there, same⟩ run => ?_) fun _ => rest tops' out
    · rw [same, out] at run
      cases run
    · rw [same, out] at run
      cases run
      exact ⟨fun _ => id, there, rfl⟩

theorem unzipEntries_leaves (dst : Option Node) (entries : List Entry) (tops : Tops) :
    Leaves calm asset (fun d => d.dst = dst ∧ d.unpacked = tops) (unzipEntries entries)
      (fun _ d => d.dst = dst ∧ unpack entries tops = .ok d.unpacked)
      (∃ e, unpack entries tops = .error e) := by
  -- the archive is gone through as `unpack` does; an entry that cannot be made stops both
  induction entries generalizing tops with
  | nil => exact .pure fun d ⟨there, same⟩ => ⟨there, congrArg Except.ok same.symm⟩
  | cons entry entries ih =>
    rcases entry with name | ⟨top, path, content⟩
    · exact .throw fun _ _ _ => ⟨_, rfl⟩
    cases content with
    | none =>
      refine bind_change (Tops.mkdirAll · top path) (fun part d v kept => ?_) (fun e out => ⟨e, ?_⟩)
        fun tops' out => ?_
      · cases Tops.mkdirAll d.unpacked top (path.take part.length) <;> exact kept
      · rw [unpack, out]
        rfl
      · rw [unpack, out]
        exact ih tops'
    | some content =>
      refine bind_change (Tops.create · top path) (fun _ _ _ => id) (fun e out => ⟨e, ?_⟩)
        fun tops' out => ?_
      · rw [unpack, out]
        rfl
      · rw [unpack, out]
        refine .bind (fun _ d => d.dst = dst ∧ d.unpacked = tops'.write top path content)
          (.write (fun _ _ _ => id) ?_) fun _ => ih _
        exact fun d ⟨there, same⟩ => ⟨fun _ => id, there, by rw [same]⟩

theorem unzip_leaves (dst : Option Node) (bytes : Bytes) :
    Leaves calm asset (fun d => d.archive = some bytes ∧ d.dst = dst ∧ d.unpacked = [])
      (unzip codecs)
      (fun _ d => d.dst = dst ∧ ∃ entries, codecs.readZip bytes = some entries ∧
        unpack entries [] = .ok d.unpacked)
      (∀ entries, codecs.readZip bytes = some entries → ∃ e, unpack entries [] = .error e) := by
  refine .bind_read (some bytes) (fun _ holds => holds.1) ?_
  cases out : codecs.readZip bytes with
  | none =>
    simp only [out]
    exact .throw fun _ _ _ => nofun
  | some entries =>
    simp only [out]
    refine (unzipEntries_leaves dst entries []).weaken (fun _ holds => holds.2)
      (fun _ _ done => ⟨done.1, entries, rfl, done.2⟩) fun refused => ?_
    rintro _ ⟨⟩
    exact refused

theorem extractZip_leaves (dst : Option Node) (bytes : Bytes) :
    Leaves calm asset (fun d => d.dst = dst ∧ d.unpacked = []) (extractZip codecs bytes)
      (fun _ d => d.dst = dst ∧ ∃ entries, codecs.readZip bytes = some entries ∧
        unpack entries [] = .ok d.unpacked)
      (∀ entries, codecs.readZip bytes = some entries → ∃ e, unpack entries [] = .error e) := by
  refine .context (.bind _ (extractAsset_leaves (fun node tops => node = dst ∧ tops = []) bytes)
    fun _ => ?_)
  refine .bind _ (unzip_leaves dst bytes).attempt fun result => ?_
  exact .bind _ (removeArchive_leaves fun _ => id) fun _ => .raise

theorem renameTop_leaves (top : String) (dir : Dir) :
    Leaves calm .yacd (fun d => d.dst = none ∧ d.unpacked = [(top, dir)]) (renameTop top)
      (fun _ d => d.dst = some (.dir dir)) refused := by
  refine .step (fun _ _ _ => id) (fun d e v _ ⟨gone, same⟩ run => ?_)
    fun d d' ⟨gone, same⟩ run => ?_
  · rw [gone, same, List.lookup_cons_self] at run
    cases run
  · rw [gone, same, List.lookup_cons_self] at run
    cases run
    exact ⟨fun v kept => ⟨kept.1, fun other => absurd rfl other⟩, rfl⟩

/-- What was unpacked is put in place if it is one directory. -/
theorem placeYacd_leaves (tops : Tops) :
    Leaves calm .yacd (fun d => d.dst = none ∧ d.unpacked = tops) placeYacd
      (fun _ d => ∃ top dir, tops = [(top, dir)] ∧ d.dst = some (.dir dir))
      (∀ top dir, tops ≠ [(top, dir)]) := by
  refine .bind_read (tops.map (·.1)) (fun d holds => by rw [holds.2]) ?_
  have all : ∀ d : Disk, d.dst = none ∧ d.unpacked = tops →
      d.dst = none ∧ ∀ entry ∈ d.unpacked, entry.1 ∈ tops.map (·.1) := by
    rintro d ⟨gone, rfl⟩
    exact ⟨gone, fun entry mem => List.mem_map_of_mem mem⟩
  match tops with
  | [] =>
    exact .bind _ ((removeTops_leaves none _).weaken all (fun _ _ => id) id) fun _ =>
      .throw fun _ _ _ => by simp
  | [(top, dir)] =>
    exact .context ((renameTop_leaves top dir).weaken (fun _ => id) (fun _ _ done =>
      ⟨top, dir, rfl, done⟩) id)
  | _ :: _ :: _ =>
    exact .bind _ ((removeTops_leaves none _).weaken all (fun _ _ => id) id) fun _ =>
      .throw fun _ _ _ => by simp

theorem extractYacd_leaves (bytes : Bytes) :
    Leaves calm .yacd (fun _ => True) (extractYacd codecs bytes)
      (fun _ d => ∃ node, zipContents codecs bytes = some node ∧ d.dst = some node)
      (zipContents codecs bytes = none) := by
  have vacuous (d d' : Disk) (same : d'.version = d.version) (v : Option Text)
      (kept : d.Kept .yacd v) : d'.Kept .yacd v :=
    ⟨same.trans kept.1, fun other => absurd rfl other⟩
  refine .bind (fun _ d => d.dst = none) (.remove (fun _ d => vacuous d _ rfl)
    fun d _ => ⟨vacuous d _ rfl, rfl⟩) fun _ => ?_
  refine .bind _ .read fun leftovers => ?_
  refine .bind (fun _ d => d.dst = none ∧ d.unpacked = []) ?_ fun _ => ?_
  · refine (removeTops_leaves none leftovers).weaken (fun d holds => ⟨holds.1, ?_⟩) (fun _ _ => id) id
    rw [holds.2]
    exact fun entry mem => List.mem_map_of_mem mem
  cases archive : codecs.readZip bytes with
  | none =>
    refine .bind _ ((extractZip_leaves none bytes).weaken (fun _ => id) (fun _ _ => id) ?_) fun _ =>
      .of_not fun d => by simp [archive]
    exact fun _ => by simp only [zipContents, archive]
  | some entries =>
    cases out : unpack entries [] with
    | error e =>
      refine .bind _ ((extractZip_leaves none bytes).weaken (fun _ => id) (fun _ _ => id) ?_)
        fun _ => .of_not fun d => by simp [archive, out]
      exact fun _ => by simp only [zipContents, archive, out]
    | ok tops =>
      refine .bind _ ((extractZip_leaves none bytes).weaken (fun _ => id) (fun _ _ => id) ?_)
        fun _ => (placeYacd_leaves tops).weaken ?_ ?_ ?_
      · intro refused
        obtain ⟨e, failed⟩ := refused entries archive
        cases out.symm.trans failed
      · rintro d ⟨gone, _, found, done⟩
        cases archive.symm.trans found
        exact ⟨gone, (Except.ok.inj (out.symm.trans done)).symm⟩
      · rintro _ d ⟨top, dir, rfl, there⟩
        exact ⟨_, by simp only [zipContents, archive, out], there⟩
      · intro many
        simp only [zipContents, archive, out]
        match tops, many with
        | [], _ => rfl
        | [(top, dir)], many => exact absurd rfl (many top dir)
        | _ :: _ :: _, _ => rfl

theorem extractArchive_leaves (asset : Asset) (package : Package) :
    Leaves calm asset (fun _ => True) (extractArchive codecs asset package)
      (fun _ d => ∃ node, contents codecs asset package = some node ∧ d.dst = some node)
      (contents codecs asset package = none) := by
  unfold extractArchive contents
  split
  · next found =>
    refine (extractXz_leaves ?_ _).weaken (fun _ => id) (fun _ _ => id) fun none => ?_
    · rintro rfl
      cases found
    · rw [none]
      rfl
  · split
    · next yacd =>
      subst yacd
      exact extractYacd_leaves _
    · exact .throw fun _ _ _ => rfl
  · exact .throw fun _ _ _ => rfl

end Files

/-! ## Version texts -/

theorem le_foldl_value (text : Text) (n : Nat) :
    n ≤ text.foldl (fun n c => 10 * n + (c.toNat - 48)) n := by
  induction text generalizing n with
  | nil => exact Nat.le_refl n
  | cons c text ih =>
    have := ih (10 * n + (c.toNat - 48))
    rw [List.foldl_cons]
    omega

theorem value_take_le (text : Text) (n : Nat) : value (text.take n) ≤ value text := by
  have split : value text = (text.drop n).foldl (fun n c => 10 * n + (c.toNat - 48))
      (value (text.take n)) := by
    rw [value, value, ← List.foldl_append, List.take_append_drop]
  rw [split]
  exact le_foldl_value _ _

variable {text : Text} {n : Nat} {useOfficialAssets : Bool}

theorem parseUint_eq_some : parseUint text = some n ↔
    (text ≠ [] ∧ (∀ c ∈ text, c.isDigit = true) ∧ value text < 18446744073709551616) ∧
      value text = n := by
  rw [parseUint, Option.ite_none_right_eq_some, Option.some.injEq, List.all_eq_true]

/-- What a write of a number leaves that was broken off reads as a smaller number, or as none. -/
theorem parseUint_take_le {m k : Nat} (whole : parseUint text = some n)
    (read : parseUint (text.take k) = some m) : m ≤ n := by
  rw [parseUint_eq_some] at whole read
  rw [← whole.2, ← read.2]
  exact value_take_le text k

/-! ## Runs one after the other -/

structure Release extends Package where
  number : Nat
  numeric : parseUint version = some number

/-- A start of the app with some package. -/
structure Start where
  release : Release
  useOfficialAssets : Bool
  fates : List Fate

def Start.run (codecs : Codecs) (asset : Asset) (d : Disk) (start : Start) : Disk :=
  (extractAssetName codecs asset start.useOfficialAssets start.release.toPackage
    ⟨d, start.fates, true⟩).2.disk

def after (codecs : Codecs) (asset : Asset) (starts : List Start) : Disk :=
  starts.foldl (Start.run codecs asset) .empty

/-- The destination is all of the asset as the release packages it. -/
def Complete (codecs : Codecs) (asset : Asset) (release : Release) (d : Disk) : Prop :=
  ∃ node, contents codecs asset release.toPackage = some node ∧ d.dst = some node

/-- A version in the version file is older than a release that was started, or the destination
is complete and not older. -/
structure Sound (codecs : Codecs) (asset : Asset) (releases : List Release) (d : Disk) : Prop where
  noDir : asset ≠ .yacd → d.NoDir
  digits : ∀ text, d.version = some text → ∀ c ∈ text, c.isDigit = true
  vouched : ∀ text version, d.version = some text → parseUint text = some version →
    (∃ release ∈ releases, version < release.number) ∨
      ∃ release ∈ releases, version ≤ release.number ∧ Complete codecs asset release d

variable {codecs : Codecs} {asset : Asset} {releases : List Release} {release : Release} {d : Disk}
  {start : Start} {calm : Prop}

theorem Sound.empty : Sound codecs asset [] .empty := ⟨fun _ _ => nofun, nofun, nofun⟩

theorem Sound.mono (sound : Sound codecs asset releases d) (release : Release) :
    Sound codecs asset (releases ++ [release]) d := by
  refine ⟨sound.noDir, sound.digits, fun text version there read => ?_⟩
  rcases sound.vouched text version there read with ⟨r, mem, older⟩ | ⟨r, mem, newer, complete⟩
  · exact .inl ⟨r, List.mem_append_left _ mem, older⟩
  · exact .inr ⟨r, List.mem_append_left _ mem, newer, complete⟩

/-- The version file does not speak for the destination: what is in it is not a number or is
older than the release. -/
def Stale (release : Release) (version : Option Text) : Prop :=
  ∀ text, version = some text → (∀ c ∈ text, c.isDigit = true) ∧
    ∀ n, parseUint text = some n → n < release.number

theorem Stale.sound (stale : Stale release d.version) (noDir : asset ≠ .yacd → d.NoDir) :
    Sound codecs asset (releases ++ [release]) d where
  noDir := noDir
  digits text there := (stale text there).1
  vouched text version there read :=
    .inl ⟨release, List.mem_append_right _ (.head _), (stale text there).2 version read⟩

/-- While the version file is written, the destination is complete. -/
theorem Complete.sound (complete : Complete codecs asset release d)
    (written : d.version = some (release.version.take n)) (noDir : asset ≠ .yacd → d.NoDir) :
    Sound codecs asset (releases ++ [release]) d where
  noDir := noDir
  digits text there c mem := by
    cases written.symm.trans there
    exact (parseUint_eq_some.mp release.numeric).1.2.1 c (List.mem_of_mem_take mem)
  vouched text version there read := by
    cases written.symm.trans there
    exact .inr ⟨release, List.mem_append_right _ (.head _),
      parseUint_take_le release.numeric read, complete⟩

/-- When an asset is extracted, the version file is stale until the destination is complete. -/
theorem extract_triple {v : Option Text} (stale : Stale release v) : Triple calm (·.Kept asset v)
      (extract codecs asset release.toPackage)
      (fun _ d => Complete codecs asset release d ∧ Sound codecs asset (releases ++ [release]) d)
      (fun d => Sound codecs asset (releases ++ [release]) d ∧
        (calm → contents codecs asset release.toPackage = none)) := by
  have broken : ∀ d : Disk, d.Kept asset v → Sound codecs asset (releases ++ [release]) d := by
    rintro d ⟨rfl, noDir⟩
    exact stale.sound noDir
  refine .bind _ ((extractArchive_leaves asset release.toPackage v).weaken
    (fun _ kept => ⟨kept, trivial⟩) (fun _ _ => id) fun d lost => ⟨broken d lost.1, lost.2⟩)
      fun _ => ?_
  refine .bind (fun _ d => Complete codecs asset release d ∧ (asset ≠ .yacd → d.NoDir) ∧
    d.version = some (release.version.take 0)) (.context (.step ?_ ?_ nofun ?_)) fun _ =>
      .step ?_ ?_ nofun ?_
  · exact fun loud d ⟨kept, _⟩ => ⟨broken d kept, fun c => absurd c loud⟩
  · exact fun loud _ d ⟨kept, _⟩ => ⟨broken d kept, fun c => absurd c loud⟩
  · rintro d _ ⟨⟨_, noDir⟩, complete⟩ ⟨⟩
    exact ⟨complete, noDir, by rw [List.take_zero]⟩
  · exact fun loud d ⟨complete, noDir, written⟩ =>
      ⟨complete.sound written noDir, fun c => absurd c loud⟩
  · intro loud part d ⟨complete, noDir, _⟩
    exact ⟨Complete.sound (n := part.length) complete rfl noDir, fun c => absurd c loud⟩
  · rintro d _ ⟨complete, noDir, _⟩ ⟨⟩
    refine ⟨complete, Complete.sound (n := release.version.length) complete ?_ noDir⟩
    rw [List.take_length]

/-- The mark of an asset that the user put there is not written by any extraction. -/
theorem ne_custom (digits : ∀ c ∈ text, c.isDigit = true) : text ≠ "Custom".toList := by
  rintro rfl
  exact absurd (digits 'C' (by decide)) (by decide)

theorem upgrades_eq (read : parseUint text = some n) :
    upgrades release.version text = decide (release.number > n) := by
  have number := ne_custom (parseUint_eq_some.mp read).1.2.1
  simp only [upgrades, if_neg number, release.numeric, read]

theorem find_complete {assetVersion : Text} (complete : Complete codecs asset release d)
    (there : d.version = some text) : find asset useOfficialAssets assetVersion d =
      if useOfficialAssets || !asset.replaceable then .version (upgrades assetVersion text)
      else .notUpgraded := by
  obtain ⟨node, -, dst⟩ := complete
  simp only [find, dst, there, Option.isNone_some, Bool.false_eq_true, if_false]

inductive Finding.Extracts : Finding → Prop where
  | assetMissing : Extracts .assetMissing
  | versionMissing : Extracts .versionMissing
  | version : Extracts (.version true)

/-- An asset is extracted only if the version file is stale. -/
theorem Sound.stale (sound : Sound codecs asset releases d)
    (last : ∀ r ∈ releases, r.number ≤ release.number)
    (found : (find asset useOfficialAssets release.version d).Extracts) :
    Stale release d.version := by
  intro text there
  refine ⟨sound.digits text there, fun n read => ?_⟩
  rcases sound.vouched text n there read with ⟨r, mem, older⟩ | ⟨r, mem, newer, complete⟩
  · exact Nat.lt_of_lt_of_le older (last r mem)
  · rw [find_complete complete there, upgrades_eq read] at found
    split at found
    · generalize upgrade : decide (release.number > n) = doExtract at found
      cases found
      exact of_decide_eq_true upgrade
    · cases found

/-- If the version file says that nothing is to be extracted, the destination is complete. -/
theorem Sound.complete (sound : Sound codecs asset releases d)
    (last : ∀ r ∈ releases, r.number ≤ release.number)
    (found : find asset useOfficialAssets release.version d = .version false) :
    ∃ text n, d.version = some text ∧ parseUint text = some n ∧ release.number ≤ n ∧
      ∃ r ∈ releases, n ≤ r.number ∧ Complete codecs asset r d := by
  unfold find at found
  split at found
  · cases found
  split at found
  case isFalse => cases found
  split at found
  · cases found
  next text there =>
    have kept := Finding.version.inj found
    cases read : parseUint text with
    | none =>
      have number := ne_custom (sound.digits text there)
      simp only [upgrades, if_neg number, release.numeric, read] at kept
      cases kept
    | some n =>
      rw [upgrades_eq read] at kept
      have enough := of_decide_eq_false kept
      refine ⟨text, n, there, read, Nat.le_of_not_lt enough, ?_⟩
      rcases sound.vouched text n there read with ⟨r, mem, older⟩ | vouched
      · exact absurd (Nat.lt_of_lt_of_le older (last r mem)) enough
      · exact vouched

theorem removeDst_triple (v : Option Text) :
    Triple calm (·.Kept asset v) removeDst (fun _ d => d.Kept asset v)
      (fun d => d.Kept asset v ∧ ¬ calm) := by
  refine .remove (fun loud _ holds => ⟨holds, loud⟩)
    (fun loud part d holds => ⟨⟨holds.1, fun database dir same => ?_⟩, loud⟩)
    fun d holds => ⟨holds.1, fun _ _ => nofun⟩
  rcases dst : d.dst with _ | _ | entries
  · simp [dst] at same
  · simp [dst, Node.remains] at same
  · exact holds.2 database entries dst

/-- However a run ends, the version file can be relied on; and when an asset was extracted, it
is complete. Nothing but a disturbance stops the extraction of what the package has. -/
theorem extractAssetName_triple (calm : Prop) (sound : Sound codecs asset releases d)
    (last : ∀ r ∈ releases, r.number ≤ release.number) (useOfficialAssets : Bool) :
    Triple calm (· = d) (extractAssetName codecs asset useOfficialAssets release.toPackage)
      (fun _ d' => Sound codecs asset (releases ++ [release]) d' ∧
        ((find asset useOfficialAssets release.version d).Extracts →
          Complete codecs asset release d'))
      (fun d' => Sound codecs asset (releases ++ [release]) d' ∧
        (calm → contents codecs asset release.toPackage = none)) := by
  have here : ∀ d', d' = d → d'.Kept asset d.version := by
    rintro _ rfl
    exact ⟨rfl, sound.noDir⟩
  have extracts {p : Prop} (found : (find asset useOfficialAssets release.version d).Extracts) :
      Triple calm (·.Kept asset d.version) (extract codecs asset release.toPackage)
        (fun _ d' => Sound codecs asset (releases ++ [release]) d' ∧
          (p → Complete codecs asset release d'))
        (fun d' => Sound codecs asset (releases ++ [release]) d' ∧
          (calm → contents codecs asset release.toPackage = none)) :=
    (extract_triple (sound.stale last found)).weaken (fun _ => id)
      (fun _ _ done => ⟨done.2, fun _ => done.1⟩) fun _ => id
  refine .bind_read (find asset useOfficialAssets release.version d) ?_ ?_ ?_
  · exact fun _ same => congrArg _ same
  · rintro loud _ rfl
    exact ⟨sound.mono release, fun c => absurd c loud⟩
  cases found : find asset useOfficialAssets release.version d with
  | assetMissing =>
    exact (extracts (found ▸ .assetMissing)).weaken here (fun _ _ => id) fun _ => id
  | versionMissing =>
    have doubt : (find asset useOfficialAssets release.version d).Extracts := by
      rw [found]
      exact .versionMissing
    refine .bind _ ((removeDst_triple d.version).weaken here (fun _ _ => id) ?_) fun _ =>
      extracts doubt
    rintro d' ⟨holds, loud⟩
    exact ⟨Stale.sound (holds.1 ▸ sound.stale last doubt) holds.2, fun c => absurd c loud⟩
  | version doExtract =>
    cases doExtract with
    | true =>
      exact (extracts (found ▸ .version)).weaken here (fun _ _ => id) fun _ => id
    | false =>
      refine .pure ?_
      rintro _ rfl
      exact ⟨sound.mono release, nofun⟩
  | notUpgraded =>
    refine .pure ?_
    rintro _ rfl
    exact ⟨sound.mono release, nofun⟩

theorem Sound.run (sound : Sound codecs asset releases d)
    (last : ∀ r ∈ releases, r.number ≤ start.release.number) :
    Sound codecs asset (releases ++ [start.release]) (start.run codecs asset d) :=
  (extractAssetName_triple False sound last start.useOfficialAssets _ False.elim rfl).final
    (fun _ _ done => done.2.1) fun _ lost => lost.2.1

/-- The last of a sequence in order is not older than those before. -/
theorem last_of_ordered {starts : List Start}
    (ordered : ((starts ++ [start]).map (·.release.number)).Pairwise (· ≤ ·)) :
    (starts.map (·.release.number)).Pairwise (· ≤ ·) ∧
      ∀ r ∈ starts.map (·.release), r.number ≤ start.release.number := by
  rw [List.map_append, List.pairwise_append] at ordered
  obtain ⟨before, -, later⟩ := ordered
  refine ⟨before, fun r mem => ?_⟩
  obtain ⟨s, among, rfl⟩ := List.mem_map.mp mem
  exact later _ (List.mem_map_of_mem among) _ (.head _)

theorem after_sound {starts : List Start}
    (ordered : (starts.map (·.release.number)).Pairwise (· ≤ ·)) :
    Sound codecs asset (starts.map (·.release)) (after codecs asset starts) := by
  induction starts using List.reverseRecOn with
  | nil => exact .empty
  | append_singleton starts start ih =>
    obtain ⟨before, last⟩ := last_of_ordered ordered
    rw [after, List.foldl_append, List.map_append]
    exact (ih before).run last

/-- A start that extracts and is not disturbed ends with the asset of its release. -/
theorem Start.run_complete {node : Node} (sound : Sound codecs asset releases d)
    (last : ∀ r ∈ releases, r.number ≤ start.release.number)
    (calm : ∀ fate ∈ start.fates, fate = .done)
    (packaged : contents codecs asset start.release.toPackage = some node)
    (found : (find asset start.useOfficialAssets start.release.version d).Extracts) :
    Complete codecs asset start.release (start.run codecs asset d) := by
  have ends := extractAssetName_triple True sound last start.useOfficialAssets
    ⟨d, start.fates, true⟩ (fun _ => ⟨rfl, calm⟩) rfl
  refine ends.final (fun _ _ done => done.2.2 found) fun _ lost => ?_
  cases packaged.symm.trans (lost.2.2 trivial)

theorem Start.run_of_kept
    (found : find asset start.useOfficialAssets start.release.version d = .version false) :
    start.run codecs asset d = d := by
  have read : Program.read (find asset start.useOfficialAssets start.release.version)
      (⟨d, start.fates, true⟩ : Machine Disk) = (.ok (.version false), ⟨d, start.fates, true⟩) := by
    rw [Program.read, if_pos rfl, found]
  unfold Start.run extractAssetName
  rw [Fault.bind_of_ok read]
  rfl

theorem find_cases (assetVersion : Text)
    (checks : useOfficialAssets = true ∨ asset.replaceable = false) :
    find asset useOfficialAssets assetVersion d = .version false ∨
      (find asset useOfficialAssets assetVersion d).Extracts := by
  have looks : (useOfficialAssets || !asset.replaceable) = true := by
    rcases checks with on | fixed
    · simp [on]
    · simp [fixed]
  simp only [find, if_pos looks]
  split
  · exact .inr .assetMissing
  · split
    · exact .inr .versionMissing
    · cases upgrades assetVersion _ with
      | false => exact .inl rfl
      | true => exact .inr .version

/-- After any starts, each with a release that is not older than those before and each perhaps
broken off anywhere: a version file by which nothing is to be extracted speaks for a complete
destination that is not older; and a start that looks at the version file and is not disturbed
ends with the asset of its release's version. -/
theorem extraction_crash_safe (codecs : Codecs) (asset : Asset) (starts : List Start) (start : Start)
    (ordered : ((starts ++ [start]).map (·.release.number)).Pairwise (· ≤ ·))
    (checks : start.useOfficialAssets = true ∨ asset.replaceable = false) :
    (find asset start.useOfficialAssets start.release.version (after codecs asset starts) =
        .version false →
      ∃ text version, (after codecs asset starts).version = some text ∧
        parseUint text = some version ∧ ∃ release ∈ starts.map (·.release),
          version ≤ release.number ∧ Complete codecs asset release (after codecs asset starts)) ∧
    ((∀ fate ∈ start.fates, fate = .done) →
      (contents codecs asset start.release.toPackage).isSome →
      ∃ release ∈ (starts ++ [start]).map (·.release), release.number = start.release.number ∧
        Complete codecs asset release (after codecs asset (starts ++ [start]))) := by
  obtain ⟨before, last⟩ := last_of_ordered ordered
  have sound : Sound codecs asset (starts.map (·.release)) (after codecs asset starts) :=
    after_sound before
  constructor
  · intro found
    obtain ⟨text, version, there, read, -, vouched⟩ := sound.complete last found
    exact ⟨text, version, there, read, vouched⟩
  · intro calm packaged
    obtain ⟨node, packaged⟩ := Option.isSome_iff_exists.mp packaged
    rw [List.map_append, after, List.foldl_append]
    change ∃ release ∈ _, _ ∧ Complete codecs asset release
      (start.run codecs asset (after codecs asset starts))
    rcases find_cases start.release.version checks with found | found
    · -- the version file names a version between the destination's and the package's
      obtain ⟨_, version, -, -, enough, release, mem, newer, complete⟩ := sound.complete last found
      rw [Start.run_of_kept found]
      refine ⟨release, List.mem_append_left _ mem, ?_, complete⟩
      exact Nat.le_antisymm (last release mem) (Nat.le_trans enough newer)
    · refine ⟨start.release, List.mem_append_right _ (.head _), rfl, ?_⟩
      exact Start.run_complete sound last calm packaged found

/-- Archives that hold what they are made of. -/
def plainCodecs : Codecs := ⟨some, fun _ => none⟩

theorem release_numeric : parseUint "2024".toList = some 2024 := by decide

def plainRelease : Release :=
  ⟨⟨"2024".toList, some [1, 2, 3], none, none⟩, 2024, release_numeric⟩

/-- The app is killed when two digits of the version are written. -/
def killedStart : Start :=
  ⟨plainRelease, false, List.replicate 7 .done ++ [.killed ⟨2, []⟩]⟩

def nextStart : Start := ⟨plainRelease, true, []⟩

/-- The next start finds an older version and extracts again. -/
theorem extracted_after_kill :
    (after plainCodecs .geoip [killedStart]).version = some "20".toList ∧
      ∃ release ∈ ([killedStart] ++ [nextStart]).map (·.release),
        release.number = nextStart.release.number ∧
        Complete plainCodecs .geoip release
          (after plainCodecs .geoip ([killedStart] ++ [nextStart])) :=
  ⟨by decide, (extraction_crash_safe plainCodecs .geoip [killedStart] nextStart
    (by decide) (.inl rfl)).2 nofun rfl⟩

end QuinMo.Libcore.Assets
