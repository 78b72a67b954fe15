import ScriptGlue.Text.Lines

/-!
# Support header

Annotated headers and generated files include it. It makes the annotations vanish, says how a
function is exported, and declares the records of a registration table.
-/

namespace ScriptGlue.Glue

def supportLines : List String :=
  ["#pragma once",
   "",
   "#ifdef _WIN32",
   "\t#define NS_EXPORT __declspec(dllexport)",
   "#else",
   "\t#define NS_EXPORT __attribute__((visibility(\"default\")))",
   "#endif",
   "",
   "#define UCLASS(...)",
   "#define USTRUCT(...)",
   "#define UPROPERTY(...)",
   "#define UFUNCTION(...)",
   "",
   "class Script \x7b",
   "public:",
   "\tvirtual ~Script() \x7b\x7d",
   "\tvirtual void start() \x7b\x7d",
   "\tvirtual void update() \x7b\x7d",
   "\x7d;",
   "",
   "enum ns_field_type \x7b",
   "\tNS_UNKNOWN = 0,",
   "\tNS_INT = 1,",
   "\tNS_CHAR = 2,",
   "\tNS_BOOL = 3,",
   "\tNS_FLOAT = 4,",
   "\tNS_DOUBLE = 5,",
   "\tNS_WCHAR = 6,",
   "\tNS_VOID = 7",
   "\x7d;",
   "",
   "typedef struct ns_field_info \x7b",
   "\tint type;",
   "\tconst char* name;",
   "\tconst char* getter;",
   "\tconst char* setter;",
   "\x7d ns_field_info;",
   "",
   "typedef struct ns_method_info \x7b",
   "\tconst char* name;",
   "\tconst int* parameters;",
   "\tint parameter_count;",
   "\tint return_type;",
   "\x7d ns_method_info;",
   "",
   "typedef struct ns_script_info \x7b",
   "\tconst char* name;",
   "\tconst ns_field_info* fields;",
   "\tint field_count;",
   "\tconst ns_method_info* methods;",
   "\tint method_count;",
   "\tconst char* create;",
   "\tconst char* destroy;",
   "\x7d ns_script_info;"]

def supportHeader : String := Text.unlines supportLines

end ScriptGlue.Glue
