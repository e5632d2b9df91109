import ApiReference.Text.Lowercase

/-!
# Barrel files

Declarations that the main file of a package does not hold may be in one of its other files. Some
packages are known to spread their declarations, and some places are worth a look for any package.
-/

namespace ApiReference.Package

def genericBarrelPaths : List Text :=
  ["dist/index.d.ts", "dist/types/index.d.ts", "types/index.d.ts", "lib/index.d.ts"].map
    String.toList

def packageBarrelPaths : List (Text × List Text) :=
  [("next",
    ["dist/client/components/navigation.d.ts", "dist/client/link.d.ts",
     "dist/shared/lib/image-external.d.ts", "dist/shared/lib/dynamic.d.ts",
     "dist/server/web/spec-extension/request.d.ts", "dist/server/web/spec-extension/response.d.ts",
     "dist/server/request/cookies.d.ts", "dist/server/request/headers.d.ts"]),
   ("@tanstack/react-query", ["build/modern/index.d.ts", "build/legacy/index.d.ts"]),
   ("@tanstack/query-core", ["build/modern/index.d.ts"]),
   ("vue", ["dist/vue.d.ts", "dist/vue.d.mts"]),
   ("@vue/runtime-core", ["dist/runtime-core.d.ts"]),
   ("@vue/reactivity", ["dist/reactivity.d.ts"]),
   ("@reduxjs/toolkit",
     ["dist/index.d.ts", "dist/query/index.d.ts", "dist/query/react/index.d.ts"]),
   ("react-dom", ["client.d.ts", "server.d.ts"]),
   ("zod", ["lib/types.d.ts", "v3/types.d.ts"]),
   ("svelte", ["types/index.d.ts", "store.d.ts"])].map
    fun (package, paths) => (package.toList, paths.map String.toList)

/-- The paths of a package, its own before the generic ones, each once. -/
def allBarrelPaths (package : Text) : List Text :=
  let own := ((packageBarrelPaths.find? fun e => e.1 == package).map Prod.snd).getD []
  (own ++ genericBarrelPaths).eraseDups

/-- The paths to try for a concept: those that mention it come first, in the same order. -/
def barrelPaths (package concept : Text) : List Text :=
  let paths := allBarrelPaths package
  let concept := Text.lower concept
  if concept.isEmpty then paths
  else
    let mentions := fun path => Text.occursIn concept (Text.lower path)
    paths.filter mentions ++ paths.filter fun path => !mentions path

end ApiReference.Package
