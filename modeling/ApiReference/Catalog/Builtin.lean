import ApiReference.Catalog.Basic

/-!
# The built-in catalog

The frameworks that are known without any configuration.
-/

namespace ApiReference.Catalog

def entry (key : String) (packages aliases apiPatterns : List String) : Framework :=
  ⟨key.toList, packages.map String.toList, aliases.map String.toList, apiPatterns.map String.toList⟩

/-- The built-in frameworks, in order of look-up. -/
def builtin : Catalog :=
  ofList [
    entry "react" ["react", "react-dom"] ["reactjs", "react.js"]
      ["usestate", "useeffect", "usecontext", "usereducer", "usecallback", "usememo", "useref",
       "uselayouteffect", "useid", "usetransition", "usedeferredvalue", "usesyncexternalstore",
       "useimperativehandle", "useoptimistic", "useactionstate", "forwardref", "createcontext",
       "suspense"],
    entry "next" ["next"] ["nextjs", "next.js"]
      ["getserversideprops", "getstaticprops", "getstaticpaths", "userouter", "usepathname",
       "usesearchparams", "nextresponse", "nextrequest", "generatemetadata", "revalidatepath",
       "revalidatetag", "redirect"],
    entry "vue" ["vue"] ["vuejs", "vue.js", "vue3"]
      ["defineprops", "defineemits", "definecomponent", "onmounted", "onunmounted", "watcheffect",
       "reactive", "computed", "userouter", "nexttick"],
    entry "svelte" ["svelte"] ["sveltejs"]
      ["onmount", "createeventdispatcher", "writable", "readable"],
    entry "angular" ["@angular/core"] ["ng", "angular2"]
      ["ngoninit", "ngondestroy", "injectable", "computed", "signal"],
    entry "solid" ["solid-js"] ["solidjs", "solid.js"]
      ["createsignal", "createeffect", "creatememo", "createresource", "createstore"],
    entry "preact" ["preact"] []
      ["signal"],
    entry "express" ["express", "@types/express"] ["expressjs", "express.js"]
      ["requesthandler", "nextfunction", "urlencoded"],
    entry "fastify" ["fastify"] []
      ["fastifyinstance", "fastifyrequest", "fastifyreply"],
    entry "hono" ["hono"] ["honojs"]
      ["honorequest"],
    entry "zod" ["zod"] []
      ["safeparse", "zodtype", "zodschema", "zodobject"],
    entry "prisma" ["@prisma/client", "prisma"] []
      ["prismaclient", "findunique", "findmany", "findfirst"],
    entry "drizzle" ["drizzle-orm"] ["drizzle orm"]
      ["pgtable", "sqlitetable", "mysqltable"],
    entry "trpc" ["@trpc/server", "@trpc/client"] []
      ["createtrpcrouter", "inittrpc", "publicprocedure", "usequery", "usemutation"],
    entry "tanstack-query" ["@tanstack/react-query", "react-query", "@tanstack/query-core"]
      ["react query", "tanstack query"]
      ["usequery", "usemutation", "queryclient", "useinfinitequery", "usequeryclient"],
    entry "redux" ["@reduxjs/toolkit", "redux"] ["redux toolkit", "rtk"]
      ["createslice", "configurestore", "createasyncthunk", "createstore"],
    entry "zustand" ["zustand"] []
      ["useshallow"],
    entry "jotai" ["jotai"] []
      ["atomwithstorage", "useatom", "useatomvalue", "usesetatom"],
    entry "axios" ["axios"] []
      ["axiosinstance", "axiosrequestconfig", "axiosresponse", "axioserror"],
    entry "mongoose" ["mongoose"] []
      ["objectid"],
    entry "vitest" ["vitest"] []
      ["describe", "beforeeach", "tohavebeencalled"],
    entry "jest" ["@jest/globals", "jest"] []
      ["describe", "beforeeach", "tohavebeencalled"],
    entry "playwright" ["@playwright/test"] []
      ["getbyrole", "tohavescreenshot"],
    entry "remix" ["@remix-run/react", "@remix-run/node"] ["remix run"]
      ["useloaderdata", "useactiondata", "redirect"],
    entry "astro" ["astro"] []
      ["getstaticpaths"]]

end ApiReference.Catalog
