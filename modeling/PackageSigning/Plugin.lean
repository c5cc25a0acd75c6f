import PackageSigning.Fault
import PackageSigning.OrderedMap
import PackageSigning.Text.Characters

/-!
# A registry of plugins

Plugins are registered under a name, at most one each, and only things that the
registry accepts. Plugins advertised elsewhere are loaded on demand: names
already taken are kept, and what does not load or is not accepted is skipped.
-/

namespace PackageSigning

/-- Plugins by name. -/
structure PluginRegistry (α : Type) where
  /-- The name of the registry in messages. -/
  name : String
  /-- The name of the kind of things that it accepts. -/
  kind : String
  accepts : α → Bool
  plugins : OrderedMap String α

/-- A plugin advertised under a name: what loading it gives. -/
structure EntryPoint (α : Type) where
  name : String
  load : Except Mishap α

namespace PluginRegistry
variable {α : Type}

/-- Without plugins. -/
def empty (name kind : String) (accepts : α → Bool) : PluginRegistry α :=
  ⟨name, kind, accepts, .empty⟩

/-- Registers a plugin. The name has to be free, and the registry has to accept the plugin. -/
def register (r : PluginRegistry α) (name : String) (plugin : α) :
    Except Fault (PluginRegistry α) :=
  if r.plugins.contains name then .error (.pluginTaken name r.name)
  else if r.accepts plugin then .ok { r with plugins := r.plugins.put name plugin }
  else .error (.mishap .wrongType)

/-- Frees a name. -/
def deregister (r : PluginRegistry α) (name : String) : Except Fault (PluginRegistry α) :=
  if r.plugins.contains name then .ok { r with plugins := r.plugins.erase name }
  else .error (.pluginNotFound name r.name)

/-- Failures to load a plugin that only skip it. -/
def isSkipped : Mishap → Bool
  | .notInstalled | .notFound | .missingMember | .wrongType => true
  | _ => false

/-- Registers advertised plugins in order. A failure other than those that
skip a plugin ends the loading; what has been registered stays. -/
def loadAll : List (EntryPoint α) → PluginRegistry α → Except Fault Unit × PluginRegistry α
  | [], r => (.ok (), r)
  | e :: rest, r =>
    if r.plugins.contains e.name then loadAll rest r
    else
      match e.load with
      | .error mishap => if isSkipped mishap then loadAll rest r else (.error (.mishap mishap), r)
      | .ok plugin =>
        match r.register e.name plugin with
        | .ok r => loadAll rest r
        | .error _ => loadAll rest r

/-- The plugin under a name. -/
def get (r : PluginRegistry α) (name : String) : Except Fault α :=
  match r.plugins.get? name with
  | some plugin => .ok plugin
  | none => .error (.pluginNotFound name r.name)

/-- The registered names in order. -/
def names (r : PluginRegistry α) : List String := r.plugins.keys.mergeSort (· ≤ ·)

/-- The registry as shown. -/
def shown (r : PluginRegistry α) : String :=
  s!"PluginRegistry(name={Text.quoted r.name}, base={r.kind}, plugins={Text.quotedList r.names})"

end PluginRegistry
end PackageSigning
